import FacLpr.Application.GroupConservation
import FacLpr.Foundations.NoisyOr
import FacLpr.Foundations.WeightedMean

/-!
# Application/GroupBounds — the box and the confidence of a group, in exact arithmetic

A group keeps the strongest detection of each provider (`keeps_strongestByProvider`).  The sides of
its box are means of theirs under positive weights, and its confidence is the noisy-or of their
contributions, so both are bounded by what was kept (`buildGroup_bounds`).
-/

namespace FacLpr

namespace MultiDetectorFusion

/-! ## The strongest detection of each provider -/

/-- The stronger of an item and the one stored. -/
def strongerItem (item : DetectionEvidence ℚ) : Option (DetectionEvidence ℚ) → DetectionEvidence ℚ
  | none => item
  | some stored => if score stored < score item then item else stored

variable {items : List (DetectionEvidence ℚ)}

theorem foldl_strongerItem (first : DetectionEvidence ℚ) (rest : List (DetectionEvidence ℚ)) :
    ∃ best ∈ first :: rest,
      rest.foldl (fun stored item => some (strongerItem item stored)) (some first) = some best ∧
        ∀ item ∈ first :: rest, score item ≤ score best := by
  induction rest generalizing first with
  | nil => exact ⟨first, List.mem_cons_self, rfl, by simp⟩
  | cons item rest ih =>
    obtain ⟨best, hmem, hfold, hbest⟩ := ih (strongerItem item (some first))
    have hstronger : score first ≤ score (strongerItem item (some first)) ∧
        score item ≤ score (strongerItem item (some first)) ∧
        (strongerItem item (some first) = first ∨ strongerItem item (some first) = item) := by
      unfold strongerItem
      simp only
      split
      · exact ⟨le_of_lt ‹_›, le_refl _, Or.inr rfl⟩
      · exact ⟨le_refl _, not_lt.mp ‹_›, Or.inl rfl⟩
    obtain ⟨hfirst, hitem, hcases⟩ := hstronger
    obtain ⟨hhead, htail⟩ := List.forall_mem_cons.mp hbest
    refine ⟨best, ?_, hfold, List.forall_mem_cons.mpr ⟨hfirst.trans hhead,
      List.forall_mem_cons.mpr ⟨hitem.trans hhead, htail⟩⟩⟩
    rcases List.mem_cons.mp hmem with rfl | hmem
    · rcases hcases with h | h <;> rw [h] <;> simp
    · exact List.mem_cons_of_mem _ (List.mem_cons_of_mem _ hmem)

theorem find?_strongestByProvider (items : List (DetectionEvidence ℚ)) (provider : Text) :
    (strongestByProvider items).find? provider =
      (items.filter fun item => item.provider == provider).foldl
        (fun stored item => some (strongerItem item stored)) none := by
  have hfold : strongestByProvider items = items.foldl (fun strongest item =>
      strongest.upsert item.provider (strongerItem item)) OrdMap.empty := by
    unfold strongestByProvider
    congr 1
    funext strongest item
    congr 1
    funext stored
    cases stored <;> rfl
  rw [hfold]
  exact OrdMap.find?_foldl_upsert DetectionEvidence.provider strongerItem provider items
    OrdMap.empty

/-- **What a provider has in the group** is its strongest detection. -/
theorem find?_strongestByProvider_cases (items : List (DetectionEvidence ℚ)) (provider : Text) :
    ((strongestByProvider items).find? provider = none ∧ ∀ item ∈ items, item.provider ≠ provider) ∨
      ∃ best, (strongestByProvider items).find? provider = some best ∧ best ∈ items ∧
        best.provider = provider ∧
        ∀ item ∈ items, item.provider = provider → score item ≤ score best := by
  rw [find?_strongestByProvider]
  have hmem : ∀ {item}, item ∈ items.filter (fun item => item.provider == provider) ↔
      item ∈ items ∧ item.provider = provider := by simp
  generalize items.filter (fun item => item.provider == provider) = mine at hmem
  cases mine with
  | nil => exact Or.inl ⟨rfl, fun item hitem h => List.not_mem_nil (hmem.mpr ⟨hitem, h⟩)⟩
  | cons first rest =>
    obtain ⟨best, hbest, hfold, hmax⟩ := foldl_strongerItem first rest
    obtain ⟨hitems, hprovider⟩ := hmem.mp hbest
    exact Or.inr ⟨best, hfold, hitems, hprovider,
      fun item hitem h => hmax item (hmem.mpr ⟨hitem, h⟩)⟩

/-- One detection of each provider, and the strongest of them. -/
structure Keeps (items kept : List (DetectionEvidence ℚ)) : Prop where
  mem : ∀ item ∈ kept, item ∈ items
  distinct : (kept.map DetectionEvidence.provider).Nodup
  complete : ∀ item ∈ items, ∃ strongest ∈ kept, strongest.provider = item.provider
  strongest : ∀ strongest ∈ kept, ∀ item ∈ items, item.provider = strongest.provider →
    score item ≤ score strongest

theorem provider_of_entry {entry : Text × DetectionEvidence ℚ}
    (h : entry ∈ (strongestByProvider items).entries) : entry.2.provider = entry.1 := by
  have hfind := OrdMap.mem_entries.mp h
  rcases find?_strongestByProvider_cases items entry.1 with ⟨hnone, -⟩ | ⟨best, hbest, -, h, -⟩
  · rw [hnone] at hfind
    cases hfind
  · rw [hbest] at hfind
    rwa [← Option.some.inj hfind]

/-- **The strongest detection of each provider is kept.** -/
theorem keeps_strongestByProvider (items : List (DetectionEvidence ℚ)) :
    Keeps items ((strongestByProvider items).entries.map Prod.snd) := by
  have hfind : ∀ item ∈ (strongestByProvider items).entries.map Prod.snd,
      (strongestByProvider items).find? item.provider = some item := by
    intro item hitem
    obtain ⟨entry, hentry, rfl⟩ := List.mem_map.mp hitem
    rw [provider_of_entry hentry]
    exact OrdMap.mem_entries.mp hentry
  have hbest : ∀ item ∈ (strongestByProvider items).entries.map Prod.snd, item ∈ items ∧
      ∀ other ∈ items, other.provider = item.provider → score other ≤ score item := by
    intro item hitem
    have hitem := hfind item hitem
    rcases find?_strongestByProvider_cases items item.provider with
      ⟨hnone, -⟩ | ⟨best, hbest, hmem, -, hmax⟩
    · rw [hnone] at hitem
      cases hitem
    · obtain rfl := Option.some.inj (hbest.symm.trans hitem)
      exact ⟨hmem, hmax⟩
  refine ⟨fun item hitem => (hbest item hitem).1, ?_, fun item hitem => ?_,
    fun item hitem => (hbest item hitem).2⟩
  · have hkeys : ((strongestByProvider items).entries.map Prod.snd).map
        DetectionEvidence.provider = (strongestByProvider items).entries.map Prod.fst := by
      rw [List.map_map]
      exact List.map_congr_left fun entry hentry => provider_of_entry hentry
    rw [hkeys]
    exact OrdMap.nodup_keys _
  · rcases find?_strongestByProvider_cases items item.provider with
      ⟨-, hnone⟩ | ⟨best, hbest, -, hprovider, -⟩
    · exact absurd rfl (hnone item hitem)
    · exact ⟨best, List.mem_map.mpr ⟨_, OrdMap.mem_entries.mpr hbest, rfl⟩, hprovider⟩

/-! ## The sums over what is kept -/

/-- The weight of an item in the box of its group. -/
def boxWeight (item : DetectionEvidence ℚ) : ℚ :=
  Scalar.max (Scalar.clamp01 (score item)) (Scalar.ofRat (1 / 1000000))

/-- The floor keeps every weight positive. -/
theorem boxWeight_pos (item : DetectionEvidence ℚ) : 0 < boxWeight item := by
  have hfloor : (0 : ℚ) < 1 / 1000000 := by norm_num
  rw [boxWeight, Scalar.max_rat, Scalar.ofRat_rat]
  exact hfloor.trans_le (le_max_right _ _)

/-- A variable of the loop that adds something of each item. -/
theorem foldl_add_eq_sum {field : GroupSums ℚ → ℚ} {value : DetectionEvidence ℚ → ℚ}
    (h : ∀ sums entry, field (GroupSums.add sums entry) = field sums + value entry.2)
    (entries : List (Text × DetectionEvidence ℚ)) (sums : GroupSums ℚ) :
    field (entries.foldl GroupSums.add sums) =
      field sums + ((entries.map Prod.snd).map value).sum := by
  induction entries generalizing sums with
  | nil => simp
  | cons entry entries ih =>
    rw [List.foldl_cons, ih, h, List.map_cons, List.map_cons, List.sum_cons, add_assoc]

theorem complement_foldl_add (entries : List (Text × DetectionEvidence ℚ)) (sums : GroupSums ℚ) :
    (entries.foldl GroupSums.add sums).fusedConfidenceComplement =
      sums.fusedConfidenceComplement *
        ((entries.map Prod.snd).map fun item => 1 - Scalar.clamp01 (score item)).prod := by
  induction entries generalizing sums with
  | nil => simp
  | cons entry entries ih =>
    rw [List.foldl_cons, ih, List.map_cons, List.map_cons, List.prod_cons, ← mul_assoc]
    rfl

/-- There is a best detection once there is one. -/
theorem best_foldl_add {entries : List (Text × DetectionEvidence ℚ)} (hne : entries ≠ [])
    (sums : GroupSums ℚ) : ∃ best, (entries.foldl GroupSums.add sums).best = some best := by
  have hstep : ∀ (sums : GroupSums ℚ) entry, ∃ best, (sums.add entry).best = some best := by
    intro sums entry
    unfold GroupSums.add
    cases sums.best with
    | none => exact ⟨_, rfl⟩
    | some best => exact ⟨_, (apply_ite some _ _ _).symm⟩
  have hkeep : ∀ (entries : List (Text × DetectionEvidence ℚ)) (sums : GroupSums ℚ),
      (∃ best, sums.best = some best) →
        ∃ best, (entries.foldl GroupSums.add sums).best = some best := by
    intro entries
    induction entries with
    | nil => exact fun _ h => h
    | cons entry entries ih => exact fun sums _ => ih _ (hstep sums entry)
  cases entries with
  | nil => exact absurd rfl hne
  | cons entry entries => exact hkeep entries _ (hstep sums entry)

/-- What a group keeps. -/
def keptItems (items : List (DetectionEvidence ℚ)) : List (DetectionEvidence ℚ) :=
  (strongestByProvider items).entries.map Prod.snd

theorem keptItems_ne_nil (hne : items ≠ []) : keptItems items ≠ [] := by
  obtain ⟨item, hitem⟩ := List.exists_mem_of_ne_nil items hne
  obtain ⟨strongest, hstrongest, -⟩ := (keeps_strongestByProvider items).complete item hitem
  exact List.ne_nil_of_mem hstrongest

/-- **What `build_group` returns** of detections there are. -/
theorem buildGroup_eq (hne : items ≠ []) : ∃ group, buildGroup items = .ok group ∧
    group.evidence = (keptItems items).map published ∧
    group.fused.bbox =
      ⟨weightedMean boxWeight (fun item => item.detection.bbox.x) (keptItems items),
        weightedMean boxWeight (fun item => item.detection.bbox.y) (keptItems items),
        weightedMean boxWeight (fun item => item.detection.bbox.width) (keptItems items),
        weightedMean boxWeight (fun item => item.detection.bbox.height) (keptItems items)⟩ ∧
    group.fused.confidence = Scalar.clamp01
      (noisyOr ((keptItems items).map fun item => Scalar.clamp01 (score item))) := by
  have hkept := keptItems_ne_nil hne
  have hentries : (strongestByProvider items).entries ≠ [] :=
    fun h => hkept (by simp [keptItems, h])
  obtain ⟨best, hbest⟩ := best_foldl_add hentries GroupSums.initial
  have hsum : ∀ {field : GroupSums ℚ → ℚ} {value : DetectionEvidence ℚ → ℚ},
      field GroupSums.initial = 0 →
      (∀ sums entry, field (GroupSums.add sums entry) = field sums + value entry.2) →
      field ((strongestByProvider items).entries.foldl GroupSums.add GroupSums.initial) =
        ((keptItems items).map value).sum := by
    intro field value hinitial hstep
    rw [foldl_add_eq_sum hstep, hinitial, zero_add, keptItems]
  have htotal := @hsum GroupSums.totalWeight boxWeight rfl fun _ _ => rfl
  have hx := @hsum GroupSums.weightedX (fun item => item.detection.bbox.x * boxWeight item) rfl
    fun _ _ => rfl
  have hy := @hsum GroupSums.weightedY (fun item => item.detection.bbox.y * boxWeight item) rfl
    fun _ _ => rfl
  have hwidth := @hsum GroupSums.weightedWidth
    (fun item => item.detection.bbox.width * boxWeight item) rfl fun _ _ => rfl
  have hheight := @hsum GroupSums.weightedHeight
    (fun item => item.detection.bbox.height * boxWeight item) rfl fun _ _ => rfl
  have hcomplement : ((strongestByProvider items).entries.foldl GroupSums.add
      GroupSums.initial).fusedConfidenceComplement =
        ((keptItems items).map fun item => 1 - Scalar.clamp01 (score item)).prod :=
    (complement_foldl_add _ _).trans (one_mul _)
  have hevidence : ((strongestByProvider items).entries.foldl GroupSums.add
      GroupSums.initial).evidence = (keptItems items).map published := by
    rw [evidence_foldl_add, keptItems, List.map_map]
    refine (List.nil_append _).trans (List.map_congr_left fun entry hentry => ?_)
    simp only [Function.comp_apply, published, provider_of_entry hentry]
  have hpos : 0 < ((keptItems items).map boxWeight).sum :=
    sum_weight_pos hkept fun item _ => boxWeight_pos item
  unfold buildGroup
  simp only
  generalize (strongestByProvider items).entries.foldl GroupSums.add GroupSums.initial = sums
    at hbest htotal hx hy hwidth hheight hcomplement hevidence
  rw [hbest]
  simp only
  rw [htotal, if_neg (not_le.mpr hpos), hx, hy, hwidth, hheight, hcomplement, hevidence]
  refine ⟨_, rfl, rfl, rfl, congrArg Scalar.clamp01 ?_⟩
  rw [noisyOr, List.map_map]
  rfl

/-! ## Bounds -/

/-- The value is neither below all of these nor above all of them. -/
def Between (values : List ℚ) (value : ℚ) : Prop :=
  (∃ low ∈ values, low ≤ value) ∧ ∃ high ∈ values, value ≤ high

theorem between_weightedMean {axis : DetectionEvidence ℚ → ℚ} {kept : List (DetectionEvidence ℚ)}
    (hne : kept ≠ []) : Between (kept.map axis) (weightedMean boxWeight axis kept) := by
  obtain ⟨⟨low, hlow, hle⟩, high, hhigh, hge⟩ :=
    weightedMean_between (f := axis) hne fun item _ => boxWeight_pos item
  exact ⟨⟨_, List.mem_map_of_mem hlow, hle⟩, _, List.mem_map_of_mem hhigh, hge⟩

/-- What is between positive values is positive. -/
theorem Between.pos {values : List ℚ} {value : ℚ} (h : Between values value)
    (hpos : ∀ low ∈ values, 0 < low) : 0 < value := by
  obtain ⟨low, hlow, hle⟩ := h.1
  exact (hpos low hlow).trans_le hle

/-- What a detector may report, and at what weight. -/
structure IsEvidence (item : DetectionEvidence ℚ) : Prop where
  bbox : item.detection.bbox.isValid = true
  weight : 0 < item.providerWeight ∧ item.providerWeight ≤ 1
  confidence : 0 ≤ item.detection.confidence ∧ item.detection.confidence ≤ 1

theorem IsEvidence.score_mem {item : DetectionEvidence ℚ} (h : IsEvidence item) :
    0 ≤ score item ∧ score item ≤ 1 :=
  ⟨mul_nonneg h.confidence.1 h.weight.1.le, mul_le_one₀ h.confidence.2 h.weight.1.le h.weight.2⟩

/-- A box and a confidence that are bounded by those of the detections kept. -/
structure FusedFrom (kept : List (DetectionEvidence ℚ)) (fused : Detection ℚ) : Prop where
  x : Between (kept.map fun item => item.detection.bbox.x) fused.bbox.x
  y : Between (kept.map fun item => item.detection.bbox.y) fused.bbox.y
  width : Between (kept.map fun item => item.detection.bbox.width) fused.bbox.width
  height : Between (kept.map fun item => item.detection.bbox.height) fused.bbox.height
  valid : fused.bbox.isValid = true
  confidence : fused.confidence =
    1 - (kept.map fun item => 1 - item.detection.confidence * item.providerWeight).prod
  contribution_le : ∀ item ∈ kept,
    item.detection.confidence * item.providerWeight ≤ fused.confidence
  le_one : fused.confidence ≤ 1

/-- **The box and the confidence of a group are bounded** by those of the detections it keeps, the
strongest of each provider; and of detections there are, there is a group. -/
theorem buildGroup_bounds (items : List (DetectionEvidence ℚ)) (hne : items ≠ [])
    (hitems : ∀ item ∈ items, IsEvidence item) :
    ∃ group kept, buildGroup items = .ok group ∧ group.evidence = kept.map published ∧
      Keeps items kept ∧ FusedFrom kept group.fused := by
  obtain ⟨group, hgroup, hevidence, hbbox, hconfidence⟩ := buildGroup_eq hne
  have hkept := keptItems_ne_nil hne
  have hkeeps := keeps_strongestByProvider items
  have hkeptItems : ∀ item ∈ keptItems items, IsEvidence item := fun item hitem =>
    hitems item (hkeeps.mem item hitem)
  have hscores : ∀ value ∈ (keptItems items).map score, 0 ≤ value ∧ value ≤ 1 := by
    intro value hvalue
    obtain ⟨item, hitem, rfl⟩ := List.mem_map.mp hvalue
    exact (hkeptItems item hitem).score_mem
  have hclamp : (keptItems items).map (fun item => Scalar.clamp01 (score item)) =
      (keptItems items).map score := List.map_congr_left fun item hitem =>
    Scalar.clamp01_of_mem (hkeptItems item hitem).score_mem.1 (hkeptItems item hitem).score_mem.2
  obtain ⟨hor0, hor1⟩ := noisyOr_mem hscores
  rw [hclamp, Scalar.clamp01_of_mem hor0 hor1] at hconfidence
  have hwidth := @between_weightedMean (fun item => item.detection.bbox.width) _ hkept
  have hheight := @between_weightedMean (fun item => item.detection.bbox.height) _ hkept
  refine ⟨group, keptItems items, hgroup, hevidence, hkeeps, ?_⟩
  refine ⟨?_, ?_, ?_, ?_, ?_, ?_, fun item hitem => ?_, ?_⟩
  · rw [hbbox]
    exact between_weightedMean hkept
  · rw [hbbox]
    exact between_weightedMean hkept
  · rw [hbbox]
    exact hwidth
  · rw [hbbox]
    exact hheight
  · rw [hbbox, BoundingBox.isValid_rat]
    constructor
    · refine hwidth.pos fun low hlow => ?_
      obtain ⟨item, hitem, rfl⟩ := List.mem_map.mp hlow
      exact (BoundingBox.isValid_rat.mp (hkeptItems item hitem).bbox).1
    · refine hheight.pos fun low hlow => ?_
      obtain ⟨item, hitem, rfl⟩ := List.mem_map.mp hlow
      exact (BoundingBox.isValid_rat.mp (hkeptItems item hitem).bbox).2
  · rw [hconfidence, noisyOr, List.map_map]
    rfl
  · rw [hconfidence]
    exact le_noisyOr hscores (List.mem_map_of_mem hitem)
  · rw [hconfidence]
    exact hor1

/-- Two detections of one provider, and one of no confidence of another. -/
theorem buildGroup_bounds_unsure : ∃ group kept,
    buildGroup [⟨boxDetection 0 0 10 10 (9 / 10), ascii "a", 1⟩,
      ⟨boxDetection 2 0 10 10 (8 / 10), ascii "a", 1⟩,
      ⟨boxDetection 1 1 12 9 0, ascii "b", 1 / 2⟩] = .ok group ∧ FusedFrom kept group.fused := by
  obtain ⟨group, kept, hgroup, -, -, hfused⟩ := buildGroup_bounds
    [⟨boxDetection 0 0 10 10 (9 / 10), ascii "a", 1⟩,
      ⟨boxDetection 2 0 10 10 (8 / 10), ascii "a", 1⟩,
      ⟨boxDetection 1 1 12 9 0, ascii "b", 1 / 2⟩] (by simp) (by
      simp only [List.forall_mem_cons, List.not_mem_nil, false_imp_iff, implies_true, and_true]
      refine ⟨⟨?_, ?_, ?_⟩, ⟨?_, ?_, ?_⟩, ⟨?_, ?_, ?_⟩⟩
      all_goals decide +kernel)
  exact ⟨group, kept, hgroup, hfused⟩

end MultiDetectorFusion

end FacLpr
