import FacLpr.Application.DisjointSetVectors
import FacLpr.Application.GroupConservation

/-!
# Application/GroupComponents — the groups are the connected components

Two surviving detections are in one group exactly when a chain of overlaps between providers links
them (`components_classesOf`).  The disjoint set that finds the groups is one its vectors hold
(`represents_uniteLinked`).
-/

namespace FacLpr

/-- The classes of a relation, each listed once. -/
structure Components {ι : Type*} (R : ι → ι → Prop) (classes : List (List ι)) : Prop where
  nonempty : ∀ members ∈ classes, members ≠ []
  nodup : classes.flatten.Nodup
  covers : ∀ i, ∃ members ∈ classes, i ∈ members
  closed : ∀ members ∈ classes, ∀ i ∈ members, ∀ j, j ∈ members ↔ R i j

namespace MultiDetectorFusion

variable {σ F : Type} [Scalar F] {n : ℕ} (config : MultiDetectorFusionConfig F)
  (evidence : Fin n → DetectionEvidence F)

/-- The calls of the loop over the pairs. -/
def unionCalls : List (DisjointSetOp n) :=
  ((indexPairs n).filter fun pair => linked config (evidence pair.1) (evidence pair.2)).map
    fun pair => .unite pair.1 pair.2

/-- **The loop over the pairs** leaves the vectors of the forest the groups are found in. -/
theorem represents_uniteLinked : ∃ v, DisjointSetVectors.run (unionCalls config evidence) = some v ∧
    v.Represents (uniteLinked config evidence) := by
  obtain ⟨v, hrun, hrepresents⟩ := DisjointSetVectors.exists_run (unionCalls config evidence)
  refine ⟨v, hrun, ?_⟩
  have hforest : (unionCalls config evidence).foldl DisjointSetVectors.applyForest
      (DisjointSet.make n) = uniteLinked config evidence := by
    rw [unionCalls, List.foldl_map, List.foldl_filter]
    rfl
  rwa [hforest] at hrepresents

/-- The groups, by the indices of their detections. -/
def classesOf : List (List (Fin n)) :=
  (grouped config evidence).entries.map fun entry => membersOf config evidence entry.1

theorem snd_entries_grouped : (grouped config evidence).entries.map Prod.snd =
    (classesOf config evidence).map (List.map evidence) := by
  rw [classesOf, List.map_map]
  exact List.map_congr_left fun entry hentry => members_of_entry config evidence hentry

/-- **The groups are the connected components** of the overlaps between providers. -/
theorem components_classesOf :
    Components (Connected config evidence) (classesOf config evidence) where
  nonempty members hmembers := by
    obtain ⟨entry, hentry, rfl⟩ := List.mem_map.mp hmembers
    intro hnil
    have hfind := OrdMap.mem_entries.mp hentry
    rw [find?_grouped, if_pos hnil] at hfind
    cases hfind
  nodup := OrdMap.nodup_flatten_map_keys _ (fun _ => (List.nodup_finRange n).filter _)
    fun {_ _} hi => (mem_membersOf config evidence).mp hi
  covers i := by
    have hmember : i ∈ membersOf config evidence (rootOf config evidence i) :=
      (mem_membersOf config evidence).mpr rfl
    have hentry := find?_grouped config evidence (rootOf config evidence i)
    rw [if_neg (List.ne_nil_of_mem hmember)] at hentry
    exact ⟨_, List.mem_map_of_mem (OrdMap.mem_entries.mpr hentry), hmember⟩
  closed members hmembers i hi j := by
    obtain ⟨entry, -, rfl⟩ := List.mem_map.mp hmembers
    rw [mem_membersOf] at hi ⊢
    rw [← rootOf_eq_iff, hi]
    exact eq_comm

/-! ## The whole fusion -/

/-- **What the groups are built from**, before they are sorted and cut. -/
theorem exists_components_of_groupEvidence {std : StdSort} {items : List (DetectionEvidence F)}
    {groups : List (DetectionGroup F)} (h : groupEvidence std config items = .ok groups) :
    ∃ classes built, Components (Connected config (survivors std config items).get) classes ∧
      classes.mapM (fun members => buildGroup (members.map (survivors std config items).get)) =
        .ok built ∧
      groups = (std.sort groupOrder built).take config.maximumGroups := by
  unfold groupEvidence at h
  simp only at h
  split at h
  · rename_i hempty
    obtain rfl := Except.ok.inj h
    have hlength : (survivors std config items).length = 0 := by
      rw [survivors, (std.perm _ _).length_eq]
      exact List.length_eq_zero_iff.mpr (List.isEmpty_iff.mp hempty)
    refine ⟨[], [], ⟨by simp, by simp, fun i => ?_, by simp⟩, rfl, ?_⟩
    · exact absurd i.isLt (by omega)
    · rw [List.length_eq_zero_iff.mp (std.perm groupOrder []).length_eq, List.take_nil]
  · obtain ⟨built, hbuilt, h⟩ := except_bind_eq_ok.mp h
    have hmap : ((grouped config (survivors std config items).get).entries.map Prod.snd).mapM
        buildGroup = .ok built := by
      rw [List.mapM_map]
      exact hbuilt
    rw [snd_entries_grouped, List.mapM_map] at hmap
    exact ⟨_, built, components_classesOf config _, hmap, (Except.ok.inj h).symm⟩

/-- **The groups are the connected components** of the surviving detections, under the overlaps
between providers.  And the disjoint set that finds them does what it should: whatever calls were
made, `find` returns, and two elements have one root exactly when the pairs united connect them. -/
theorem groups_are_components :
    (∀ {n : ℕ} (config : MultiDetectorFusionConfig F) (evidence : Fin n → DetectionEvidence F),
      ∃ classes, Components (Connected config evidence) classes ∧
        (grouped config evidence).entries.map Prod.snd = classes.map (List.map evidence)) ∧
    (∀ (std : StdSort) (fusion : MultiDetectorFusion σ F) (image : ImageView)
      (context : OperationContext) (s s' : σ) (groups : List (DetectionGroup F)),
      fusion.detectGroups std image context s = .ok groups s' →
        ∃ items t classes built, fusion.collectEvidence image context s = .ok items t ∧
          Components (Connected fusion.config (survivors std fusion.config items).get) classes ∧
          classes.mapM (fun members =>
            buildGroup (members.map (survivors std fusion.config items).get)) = .ok built ∧
          groups = (std.sort groupOrder built).take fusion.config.maximumGroups) ∧
    ∀ {n : ℕ} (ops : List (DisjointSetOp n)), ∃ v, DisjointSetVectors.run ops = some v ∧
      ∀ i j : Fin n, ∃ v₁ v₂ root root',
        DisjointSetVectors.find n v i = some (v₁, root) ∧
        DisjointSetVectors.find n v₁ j = some (v₂, root') ∧
        (root = root' ↔ Relation.EqvGen (fun i j => DisjointSetOp.unite i j ∈ ops) i j) := by
  refine ⟨fun config evidence => ⟨_, components_classesOf config evidence,
    snd_entries_grouped config evidence⟩,
    fun std fusion image context s s' groups hrun => ?_, fun ops => ?_⟩
  · obtain ⟨items, t, hcollect, hgroups⟩ := Program.bind_eq_ok.mp hrun
    have hresult : groupEvidence std fusion.config items = .ok groups := by
      cases hresult : groupEvidence std fusion.config items with
      | error e =>
        rw [hresult] at hgroups
        cases hgroups
      | ok result =>
        rw [hresult] at hgroups
        cases hgroups
        rfl
    obtain ⟨classes, built, hclasses, hbuilt, heq⟩ :=
      exists_components_of_groupEvidence fusion.config hresult
    exact ⟨items, t, classes, built, hcollect, hclasses, hbuilt, heq⟩
  · obtain ⟨v, hrun, hrepresents⟩ := DisjointSetVectors.exists_run ops
    exact ⟨v, hrun, DisjointSetVectors.exists_find_find hrepresents⟩

theorem groups_are_components_bridged :
    (∃ groups s' items classes,
      bridgedFusion.detectGroups .stable tinyImage ⟨none⟩ .frozen = .ok groups s' ∧
        Components (Connected bridgedFusion.config (survivors .stable bridgedFusion.config items).get)
          classes) ∧
    ∃ v, DisjointSetVectors.run [.unite (0 : Fin 3) 1, .find 1] = some v := by
  have hreturns : ((bridgedFusion.detectGroups .stable tinyImage ⟨none⟩).returned?
      .frozen).isSome = true := by decide +kernel
  obtain ⟨groups, hgroups⟩ := Option.isSome_iff_exists.mp hreturns
  obtain ⟨s', hrun⟩ := Program.returned?_eq_some.mp hgroups
  obtain ⟨-, hcomponents, hfind⟩ := groups_are_components (σ := Frozen) (F := ℚ)
  obtain ⟨items, t, classes, built, -, hclasses, -, -⟩ :=
    hcomponents .stable bridgedFusion tinyImage ⟨none⟩ .frozen s' groups hrun
  obtain ⟨v, hv, -⟩ := hfind [.unite (0 : Fin 3) 1, .find 1]
  exact ⟨⟨groups, s', items, classes, hrun, hclasses⟩, v, hv⟩

end MultiDetectorFusion

end FacLpr
