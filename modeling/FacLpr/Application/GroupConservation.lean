import FacLpr.Application.MultiDetectorFusion

/-!
# Application/GroupConservation — what becomes of each surviving detection

The groups are the connected components of the overlaps between providers (`joins_uniteLinked`,
`find?_grouped`), and a group publishes one detection for each of its providers
(`strongestByProvider_map`).  So a detection that a chain of overlaps links to another of its own
provider may be lost, and no other.
-/

namespace FacLpr

variable {σ F : Type} [Scalar F]

namespace MultiDetectorFusion

/-! ## The groups are the connected components -/

variable {n : ℕ} (config : MultiDetectorFusionConfig F) (evidence : Fin n → DetectionEvidence F)

/-- A chain of overlaps between detections of different providers. -/
def Connected : Fin n → Fin n → Prop :=
  Relation.EqvGen fun i j => i < j ∧ linked config (evidence i) (evidence j) = true

theorem mem_indexPairs {i j : Fin n} : (i, j) ∈ indexPairs n ↔ i < j := by
  simp [indexPairs]

theorem joins_uniteLinked :
    (uniteLinked config evidence).Joins fun i j =>
      i < j ∧ linked config (evidence i) (evidence j) = true := by
  have hfold : uniteLinked config evidence =
      ((indexPairs n).filter fun pair => linked config (evidence pair.1) (evidence pair.2)).foldl
        (fun groups pair => groups.unite pair.1 pair.2) (DisjointSet.make n) :=
    (List.foldl_filter ..).symm
  rw [hfold]
  simpa only [List.mem_filter, mem_indexPairs] using DisjointSet.joins_foldl_unite
    ((indexPairs n).filter fun pair => linked config (evidence pair.1) (evidence pair.2))

/-- The root of an index once every pair was visited. -/
def rootOf (i : Fin n) : Fin n := (uniteLinked config evidence).root i

theorem rootOf_eq_iff {i j : Fin n} :
    rootOf config evidence i = rootOf config evidence j ↔ Connected config evidence i j :=
  joins_uniteLinked config evidence i j

/-- Filling the groups reads the roots and leaves them as they are. -/
theorem grouped_eq : grouped config evidence =
    (List.finRange n).foldl (fun grouped index =>
      grouped.upsert (rootOf config evidence index) fun stored =>
        stored.getD [] ++ [evidence index]) OrdMap.empty := by
  have hfold : ∀ (l : List (Fin n)) {s : DisjointSet n}
      {m : OrdMap (Fin n) (List (DetectionEvidence F))},
      (∀ i, s.root i = rootOf config evidence i) →
      (l.foldl (fun filled index =>
        let found := filled.1.find index
        (found.set, filled.2.upsert found.root fun stored =>
          stored.getD [] ++ [evidence index])) (s, m)).2 =
        l.foldl (fun grouped index => grouped.upsert (rootOf config evidence index) fun stored =>
          stored.getD [] ++ [evidence index]) m := by
    intro l
    induction l with
    | nil => exact fun _ => rfl
    | cons index l ih =>
      intro s m hs
      rw [List.foldl_cons, List.foldl_cons, ← hs index]
      exact ih fun i => (s.root_find index i).trans (hs i)
  exact hfold _ fun _ => rfl

/-- The indices of one group. -/
def membersOf (r : Fin n) : List (Fin n) :=
  (List.finRange n).filter fun i => rootOf config evidence i == r

theorem mem_membersOf {r i : Fin n} :
    i ∈ membersOf config evidence r ↔ rootOf config evidence i = r := by
  simp [membersOf]

/-- **A group holds the detections of its component**, in the order of evidence. -/
theorem find?_grouped (r : Fin n) : (grouped config evidence).find? r =
    if membersOf config evidence r = [] then none
    else some ((membersOf config evidence r).map evidence) := by
  have hpush : ∀ (l : List (Fin n)) (items : List (DetectionEvidence F)),
      l.foldl (fun stored i => some (stored.getD [] ++ [evidence i])) (some items) =
        some (items ++ l.map evidence) := by
    intro l
    induction l with
    | nil => exact fun items => congrArg some (List.append_nil items).symm
    | cons i l ih => exact fun items => (ih _).trans (congrArg some (List.append_assoc ..))
  rw [grouped_eq, OrdMap.find?_foldl_upsert (rootOf config evidence) (fun index stored =>
    Option.getD stored [] ++ [evidence index])]
  change (membersOf config evidence r).foldl _ none = _
  cases membersOf config evidence r with
  | nil => rfl
  | cons i l => exact hpush l [evidence i]

/-! ## One detection for each provider of a group -/

/-- The stronger of the detection at hand and the one stored. -/
def stronger (i : Fin n) : Option (Fin n) → Fin n
  | none => i
  | some j => if score (evidence j) < score (evidence i) then i else j

/-- The strongest detections of a group, by their indices. -/
def strongestOf (indices : List (Fin n)) : OrdMap Text (Fin n) :=
  indices.foldl (fun strongest i => strongest.upsert (evidence i).provider (stronger evidence i))
    OrdMap.empty

theorem strongestByProvider_map (indices : List (Fin n)) :
    strongestByProvider (indices.map evidence) = (strongestOf evidence indices).map evidence := by
  unfold strongestByProvider strongestOf
  rw [List.foldl_map]
  change List.foldl _ (OrdMap.map evidence OrdMap.empty) _ = _
  refine List.foldl_hom (OrdMap.map evidence) fun strongest i => ?_
  refine OrdMap.map_upsert (fun stored => ?_) _ _
  cases stored with
  | none => rfl
  | some j => exact (apply_ite evidence _ _ _).symm

theorem find?_strongestOf (indices : List (Fin n)) (provider : Text) :
    (strongestOf evidence indices).find? provider =
      (indices.filter fun i => (evidence i).provider == provider).foldl
        (fun stored i => some (stronger evidence i stored)) none :=
  OrdMap.find?_foldl_upsert (fun i => (evidence i).provider) (stronger evidence) provider indices
    OrdMap.empty

/-- What a provider has in a group is one of its detections there. -/
theorem of_find?_strongestOf {indices : List (Fin n)} {provider : Text} {j : Fin n}
    (h : (strongestOf evidence indices).find? provider = some j) :
    j ∈ indices ∧ (evidence j).provider = provider := by
  have hfold : ∀ (l : List (Fin n)) {stored : Option (Fin n)},
      l.foldl (fun stored i => some (stronger evidence i stored)) stored = some j →
        stored = some j ∨ j ∈ l := by
    intro l
    induction l with
    | nil => exact fun h => Or.inl h
    | cons i l ih =>
      intro stored h
      rcases ih h with h | h
      · cases stored with
        | none => exact Or.inr (Option.some.inj h ▸ List.mem_cons_self)
        | some k =>
          have hk : (if score (evidence k) < score (evidence i) then i else k) = j :=
            Option.some.inj h
          split at hk
          · exact Or.inr (hk ▸ List.mem_cons_self)
          · exact Or.inl (congrArg some hk)
      · exact Or.inr (List.mem_cons_of_mem _ h)
  rw [find?_strongestOf] at h
  have hj := (hfold _ h).resolve_left (fun h => nomatch h)
  simpa using hj

/-- A provider with a detection in a group keeps one. -/
theorem exists_find?_strongestOf {indices : List (Fin n)} {i : Fin n} (hi : i ∈ indices) :
    ∃ j, (strongestOf evidence indices).find? (evidence i).provider = some j := by
  have hfold : ∀ (l : List (Fin n)) (k : Fin n), ∃ j,
      l.foldl (fun stored i => some (stronger evidence i stored)) (some k) = some j := by
    intro l
    induction l with
    | nil => exact fun k => ⟨k, rfl⟩
    | cons i l ih => exact fun k => ih _
  have hmem : i ∈ indices.filter fun j => (evidence j).provider == (evidence i).provider :=
    List.mem_filter.mpr ⟨hi, beq_self_eq_true _⟩
  rw [find?_strongestOf]
  generalize (indices.filter fun j => (evidence j).provider == (evidence i).provider) = l at hmem
  cases l with
  | nil => exact absurd hmem List.not_mem_nil
  | cons k l => exact hfold l _

/-- What a group publishes of a detection. -/
def published (item : DetectionEvidence F) : DetectionEvidence F :=
  { item with detection := { item.detection with provider := item.provider } }

/-- The indices of what a group publishes. -/
def keptOf (r : Fin n) : List (Fin n) :=
  (strongestOf evidence (membersOf config evidence r)).entries.map Prod.snd

theorem mem_keptOf {r j : Fin n} : j ∈ keptOf config evidence r ↔
    (strongestOf evidence (membersOf config evidence r)).find? (evidence j).provider = some j := by
  unfold keptOf
  rw [List.mem_map]
  constructor
  · rintro ⟨⟨provider, i⟩, hentry, rfl⟩
    have hfind := OrdMap.mem_entries.mp hentry
    rwa [(of_find?_strongestOf evidence hfind).2]
  · exact fun h => ⟨_, OrdMap.mem_entries.mpr h, rfl⟩

/-- The loop of `build_group` publishes what it visits. -/
theorem evidence_foldl_add (entries : List (Text × DetectionEvidence F)) (sums : GroupSums F) :
    (entries.foldl GroupSums.add sums).evidence = sums.evidence ++ entries.map fun entry =>
      { entry.2 with detection := { entry.2.detection with provider := entry.1 } } := by
  induction entries generalizing sums with
  | nil => exact (List.append_nil _).symm
  | cons entry entries ih => exact (ih _).trans (List.append_assoc ..)

theorem evidence_of_buildGroup {r : Fin n} {group : DetectionGroup F}
    (h : buildGroup ((membersOf config evidence r).map evidence) = .ok group) :
    group.evidence = (keptOf config evidence r).map fun i => published (evidence i) := by
  unfold buildGroup at h
  rw [strongestByProvider_map] at h
  have hentries : (OrdMap.map evidence (strongestOf evidence (membersOf config evidence r))).entries =
      (strongestOf evidence (membersOf config evidence r)).entries.map
        fun entry => (entry.1, evidence entry.2) := rfl
  have hsums := evidence_foldl_add (OrdMap.map evidence
    (strongestOf evidence (membersOf config evidence r))).entries GroupSums.initial
  generalize (OrdMap.map evidence (strongestOf evidence (membersOf config evidence r))).entries.foldl
    GroupSums.add GroupSums.initial = sums at h hsums
  have hgroup : group.evidence = sums.evidence := by
    simp only at h
    split at h
    · cases h
    · split at h
      · cases h
      · rw [← Except.ok.inj h]
  rw [hgroup, hsums, hentries, List.map_map, keptOf, List.map_map]
  refine (List.nil_append _).trans (List.map_congr_left fun entry hentry => ?_)
  have hprovider := (of_find?_strongestOf evidence (OrdMap.mem_entries.mp hentry)).2
  simp only [Function.comp_apply, published, hprovider]

/-! ## Every survivor has its place -/

/-- The survivors of `deduplicate_same_model`, in the order of evidence. -/
def survivors (std : StdSort) (config : MultiDetectorFusionConfig F)
    (evidence : List (DetectionEvidence F)) : List (DetectionEvidence F) :=
  std.sort evidenceOrder (deduplicateSameModel std config evidence)

/-- The groups publish the survivors `kept` lists, group by group. -/
structure Conserves (groups : List (DetectionGroup F)) (kept : List (List (Fin n))) : Prop where
  publishes : List.Forall₂ (fun group indices =>
    group.evidence = indices.map fun i => published (evidence i)) groups kept
  /-- No survivor is in two groups, or twice in one. -/
  nodup : kept.flatten.Nodup
  /-- A group is made of survivors that overlap. -/
  connected : ∀ indices ∈ kept, ∀ i ∈ indices, ∀ j ∈ indices, Connected config evidence i j
  /-- Of the survivors of one provider that are connected, exactly one is kept. -/
  unique : ∀ i, ∃! j, j ∈ kept.flatten ∧ Connected config evidence i j ∧
    (evidence j).provider = (evidence i).provider

/-- The survivors kept, component by component. -/
def keptIndices : List (List (Fin n)) :=
  (grouped config evidence).entries.map fun entry => keptOf config evidence entry.1

theorem members_of_entry {entry : Fin n × List (DetectionEvidence F)}
    (h : entry ∈ (grouped config evidence).entries) :
    entry.2 = (membersOf config evidence entry.1).map evidence := by
  have hfind := OrdMap.mem_entries.mp h
  rw [find?_grouped] at hfind
  split at hfind
  · cases hfind
  · exact (Option.some.inj hfind).symm

theorem rootOf_of_mem_keptOf {r j : Fin n} (h : j ∈ keptOf config evidence r) :
    rootOf config evidence j = r :=
  (mem_membersOf config evidence).mp
    (of_find?_strongestOf evidence ((mem_keptOf config evidence).mp h)).1

/-- Each component has its entry. -/
theorem mem_flatten_keptIndices {j : Fin n} : j ∈ (keptIndices config evidence).flatten ↔
    j ∈ keptOf config evidence (rootOf config evidence j) := by
  unfold keptIndices
  rw [List.mem_flatten]
  constructor
  · rintro ⟨indices, hindices, hj⟩
    obtain ⟨entry, -, rfl⟩ := List.mem_map.mp hindices
    rwa [rootOf_of_mem_keptOf config evidence hj]
  · intro hj
    have hmember : j ∈ membersOf config evidence (rootOf config evidence j) :=
      (mem_membersOf config evidence).mpr rfl
    have hentry := find?_grouped config evidence (rootOf config evidence j)
    rw [if_neg (List.ne_nil_of_mem hmember)] at hentry
    exact ⟨_, List.mem_map_of_mem (OrdMap.mem_entries.mpr hentry), hj⟩

theorem nodup_keptOf (r : Fin n) : (keptOf config evidence r).Nodup := by
  have hkeys : (keptOf config evidence r).map (fun j => (evidence j).provider) =
      (strongestOf evidence (membersOf config evidence r)).entries.map Prod.fst := by
    rw [keptOf, List.map_map]
    exact List.map_congr_left fun entry hentry =>
      (of_find?_strongestOf evidence (OrdMap.mem_entries.mp hentry)).2
  refine List.Nodup.of_map (fun j => (evidence j).provider) ?_
  rw [hkeys]
  exact OrdMap.nodup_keys _

theorem nodup_flatten_keptIndices : (keptIndices config evidence).flatten.Nodup :=
  OrdMap.nodup_flatten_map_keys _ (nodup_keptOf config evidence)
    fun {_ _} hj => rootOf_of_mem_keptOf config evidence hj

/-- **Of the survivors of one provider that are connected, exactly one is kept.** -/
theorem unique_keptIndices (i : Fin n) : ∃! j, j ∈ (keptIndices config evidence).flatten ∧
    Connected config evidence i j ∧ (evidence j).provider = (evidence i).provider := by
  obtain ⟨j, hj⟩ := exists_find?_strongestOf evidence
    ((mem_membersOf config evidence (i := i)).mpr rfl)
  obtain ⟨hmember, hprovider⟩ := of_find?_strongestOf evidence hj
  have hroot := (mem_membersOf config evidence).mp hmember
  refine ⟨j, ⟨?_, (rootOf_eq_iff config evidence).mp hroot.symm, hprovider⟩, ?_⟩
  · rw [mem_flatten_keptIndices, mem_keptOf, hroot, hprovider]
    exact hj
  · rintro k ⟨hk, hconnected, hk'⟩
    rw [mem_flatten_keptIndices, mem_keptOf, hk',
      ← (rootOf_eq_iff config evidence).mpr hconnected] at hk
    exact Option.some.inj (hk.symm.trans hj)

/-- Groups built from the components, in any order. -/
theorem exists_conserves {groups built : List (DetectionGroup F)}
    (hbuilt : (grouped config evidence).entries.mapM (fun entry => buildGroup entry.2) = .ok built)
    (hperm : groups.Perm built) : ∃ kept, Conserves config evidence groups kept := by
  have hpublishes : List.Forall₂ (fun (group : DetectionGroup F) indices =>
      group.evidence = indices.map fun i => published (evidence i)) built
        (keptIndices config evidence) := by
    refine List.forall₂_map_right_iff.mpr ((except_forall₂_of_mapM hbuilt).imp ?_)
    rintro group entry ⟨hentry, hgroup⟩
    rw [members_of_entry config evidence hentry] at hgroup
    exact evidence_of_buildGroup config evidence hgroup
  obtain ⟨kept, hpublishes, hkept⟩ := List.perm_comp_forall₂ hperm hpublishes
  have hflatten : kept.flatten.Perm (keptIndices config evidence).flatten := hkept.flatten
  refine ⟨kept, hpublishes, hflatten.nodup_iff.mpr (nodup_flatten_keptIndices config evidence),
    fun indices hindices i hi j hj => ?_, fun i => ?_⟩
  · obtain ⟨entry, -, rfl⟩ := List.mem_map.mp (hkept.mem_iff.mp hindices)
    exact (rootOf_eq_iff config evidence).mp ((rootOf_of_mem_keptOf config evidence hi).trans
      (rootOf_of_mem_keptOf config evidence hj).symm)
  · simpa only [hflatten.mem_iff] using unique_keptIndices config evidence i

/-- **What becomes of each survivor**, when no group is cut off. -/
theorem groupEvidence_conserves {std : StdSort} {items : List (DetectionEvidence F)}
    {groups : List (DetectionGroup F)} (h : groupEvidence std config items = .ok groups)
    (hsize : (grouped config (survivors std config items).get).size ≤ config.maximumGroups) :
    ∃ kept, Conserves config (survivors std config items).get groups kept := by
  unfold groupEvidence at h
  simp only at h
  split at h
  · rename_i hempty
    obtain rfl := Except.ok.inj h
    have hlength : (survivors std config items).length = 0 := by
      rw [survivors, (std.perm _ _).length_eq]
      exact List.length_eq_zero_iff.mpr (List.isEmpty_iff.mp hempty)
    refine ⟨[], .nil, List.nodup_nil, fun _ h => absurd h List.not_mem_nil, fun i => ?_⟩
    exact absurd i.isLt (by omega)
  · obtain ⟨built, hbuilt, h⟩ := except_bind_eq_ok.mp h
    obtain rfl := Except.ok.inj h
    have hlength := (except_forall₂_of_mapM hbuilt).length_eq
    have htake : (std.sort groupOrder built).take config.maximumGroups =
        std.sort groupOrder built := by
      refine List.take_of_length_le ?_
      rw [(std.perm _ _).length_eq, hlength]
      exact hsize
    rw [htake]
    exact exists_conserves config _ hbuilt (std.perm _ _)

/-- **What a run makes of each survivor.**  When no group is cut off, a survivor is in exactly one
group's evidence, unless a chain of overlaps links it to another survivor of its provider; of those,
exactly one is. -/
theorem detectGroups_conserves (std : StdSort) (fusion : MultiDetectorFusion σ F)
    (image : ImageView) (context : OperationContext) {s s' : σ} {groups : List (DetectionGroup F)}
    (h : fusion.detectGroups std image context s = .ok groups s') :
    ∃ items t, fusion.collectEvidence image context s = .ok items t ∧
      ((grouped fusion.config (survivors std fusion.config items).get).size ≤
          fusion.config.maximumGroups →
        ∃ kept, Conserves fusion.config (survivors std fusion.config items).get groups kept) := by
  obtain ⟨items, t, hcollect, hgroups⟩ := Program.bind_eq_ok.mp h
  refine ⟨items, t, hcollect, groupEvidence_conserves fusion.config ?_⟩
  cases hresult : groupEvidence std fusion.config items with
  | error e =>
    rw [hresult] at hgroups
    cases hgroups
  | ok result =>
    rw [hresult] at hgroups
    cases hgroups
    rfl

/-- A detector that sees two plates apart, and one that sees them as one. -/
def bridgedFusion : MultiDetectorFusion Frozen ℚ where
  detectors := [⟨fixedDetector "a" [boxDetection 0 0 10 10 (9 / 10),
      boxDetection 20 0 10 10 (8 / 10)], 1, true⟩,
    ⟨fixedDetector "b" [boxDetection 0 0 30 10 (85 / 100)], 1, true⟩]
  config := {}
  accepted := by decide +kernel

/-- The plate on the right, as the first detector reports it. -/
def rightPlate : DetectionEvidence ℚ := ⟨boxDetection 20 0 10 10 (8 / 10), ascii "a", 1⟩

theorem detectGroups_conserves_bridged : ∃ groups s' items kept,
    bridgedFusion.detectGroups .stable tinyImage ⟨none⟩ .frozen = .ok groups s' ∧
      Conserves bridgedFusion.config (survivors .stable bridgedFusion.config items).get groups
        kept := by
  have hreturns : ((bridgedFusion.detectGroups .stable tinyImage ⟨none⟩).returned?
      .frozen).isSome = true := by decide +kernel
  have hsize : ∀ items ∈ (bridgedFusion.collectEvidence tinyImage ⟨none⟩).returned? .frozen,
      (grouped bridgedFusion.config (survivors .stable bridgedFusion.config items).get).size ≤
        bridgedFusion.config.maximumGroups := by decide +kernel
  obtain ⟨groups, hgroups⟩ := Option.isSome_iff_exists.mp hreturns
  obtain ⟨s', hrun⟩ := Program.returned?_eq_some.mp hgroups
  obtain ⟨items, t, hcollect, hkept⟩ :=
    detectGroups_conserves .stable bridgedFusion tinyImage ⟨none⟩ hrun
  obtain ⟨kept, hkept⟩ := hkept (hsize items (Program.returned?_eq_some.mpr ⟨t, hcollect⟩))
  exact ⟨groups, s', items, kept, hrun, hkept⟩

/-- **A plate is lost**: of the two plates of the first detector the group keeps the left one. -/
theorem detectGroups_loses_plate :
    ∃ items ∈ (bridgedFusion.collectEvidence tinyImage ⟨none⟩).returned? .frozen,
      rightPlate ∈ deduplicateSameModel .stable bridgedFusion.config items ∧
      ∃ groups ∈ (bridgedFusion.detectGroups .stable tinyImage ⟨none⟩).returned? .frozen,
        groups.length = 1 ∧ groups.length ≤ bridgedFusion.config.maximumGroups ∧
          ∀ group ∈ groups, ∀ item ∈ group.evidence,
            item.detection.bbox ≠ rightPlate.detection.bbox := by
  decide +kernel

end MultiDetectorFusion

end FacLpr
