import FacLpr.Application.MultiDetectorFusion

/-!
# Application/GroupOrder — detection groups do not depend on the order of the detections

The comparisons of the fusion read an item's provider, confidence and box only, so every step of it
commutes with dropping the rest (`groupEvidence_outline`).  Without the rest, sorting leaves nothing
open: items it cannot tell apart are equal, and the sorted evidence is a function of the set of
items.
-/

namespace FacLpr

variable {σ F : Type} [Scalar F]

/-- The item without its corners and its geometry score. -/
def DetectionEvidence.outline (item : DetectionEvidence F) : DetectionEvidence F :=
  { item with detection := { item.detection with
      quadrilateral := none, geometryScore := 0, provider := item.provider } }

/-- The group without the corners and the geometry scores. -/
def DetectionGroup.outline (group : DetectionGroup F) : DetectionGroup F where
  fused := { group.fused with quadrilateral := none, geometryScore := 0 }
  evidence := group.evidence.map DetectionEvidence.outline

namespace MultiDetectorFusion

/-! ## Dropping what no comparison reads -/

theorem sort_outline (std : StdSort) (evidence : List (DetectionEvidence F)) :
    std.sort evidenceOrder (evidence.map DetectionEvidence.outline) =
      (std.sort evidenceOrder evidence).map DetectionEvidence.outline :=
  std.map DetectionEvidence.outline evidenceOrder evidence

theorem deduplicateSameModel_outline (std : StdSort) (config : MultiDetectorFusionConfig F)
    (evidence : List (DetectionEvidence F)) :
    deduplicateSameModel std config (evidence.map DetectionEvidence.outline) =
      (deduplicateSameModel std config evidence).map DetectionEvidence.outline := by
  unfold deduplicateSameModel
  rw [sort_outline, List.foldl_map]
  change List.foldl _ (List.map DetectionEvidence.outline []) _ = _
  refine List.foldl_hom (List.map DetectionEvidence.outline) fun kept item => ?_
  have hany : (kept.map DetectionEvidence.outline).any (duplicates config · item.outline) =
      kept.any (duplicates config · item) := List.any_map
  rw [hany]
  split
  · rfl
  · rw [List.map_append]
    rfl

theorem grouped_outline (config : MultiDetectorFusionConfig F) {m n : ℕ} (h : m = n)
    {evidence : Fin m → DetectionEvidence F} {evidence' : Fin n → DetectionEvidence F}
    (houtline : ∀ i, evidence' (Fin.cast h i) = (evidence i).outline) :
    (grouped config evidence').entries.map Prod.snd =
      ((grouped config evidence).entries.map Prod.snd).map
        (List.map DetectionEvidence.outline) := by
  subst h
  obtain rfl : evidence' = fun i => (evidence i).outline := funext houtline
  have hunited : uniteLinked config (fun i => (evidence i).outline) = uniteLinked config evidence :=
    rfl
  have hgrouped : grouped config (fun i => (evidence i).outline) =
      (grouped config evidence).map (List.map DetectionEvidence.outline) := by
    let drop : DisjointSet m × OrdMap (Fin m) (List (DetectionEvidence F)) →
        DisjointSet m × OrdMap (Fin m) (List (DetectionEvidence F)) := fun state =>
      (state.1, state.2.map (List.map DetectionEvidence.outline))
    unfold grouped
    rw [hunited]
    change (List.foldl _ (drop (uniteLinked config evidence, OrdMap.empty)) _).2 = _
    refine congrArg Prod.snd (List.foldl_hom drop fun state index => ?_)
    refine Prod.ext rfl (OrdMap.map_upsert (fun stored => ?_) _ _)
    cases stored with
    | none => rfl
    | some items =>
      simp only [Option.map_some, Option.getD_some, List.map_append, List.map_cons, List.map_nil]
  rw [hgrouped]
  simp only [OrdMap.map, List.map_map, Function.comp_def]

theorem strongestByProvider_outline (evidence : List (DetectionEvidence F)) :
    strongestByProvider (evidence.map DetectionEvidence.outline) =
      (strongestByProvider evidence).map DetectionEvidence.outline := by
  unfold strongestByProvider
  rw [List.foldl_map]
  change List.foldl _ (OrdMap.map DetectionEvidence.outline OrdMap.empty) _ = _
  refine List.foldl_hom (OrdMap.map DetectionEvidence.outline) fun strongest item => ?_
  refine OrdMap.map_upsert (fun stored => ?_) _ _
  cases stored with
  | none => rfl
  | some item' => exact (apply_ite DetectionEvidence.outline _ _ _).symm

/-- Two sums that differ in corners and geometry only. -/
structure GroupSums.Alike (sums sums' : GroupSums F) : Prop where
  totalWeight : sums.totalWeight = sums'.totalWeight
  weightedX : sums.weightedX = sums'.weightedX
  weightedY : sums.weightedY = sums'.weightedY
  weightedWidth : sums.weightedWidth = sums'.weightedWidth
  weightedHeight : sums.weightedHeight = sums'.weightedHeight
  complement : sums.fusedConfidenceComplement = sums'.fusedConfidenceComplement
  best : sums.best.map Prod.fst = sums'.best.map Prod.fst
  evidence : sums.evidence.map DetectionEvidence.outline =
    sums'.evidence.map DetectionEvidence.outline

theorem GroupSums.Alike.add {sums sums' : GroupSums F} (h : sums.Alike sums') (provider : Text)
    (item : DetectionEvidence F) :
    (sums.add (provider, item.outline)).Alike (sums'.add (provider, item)) where
  totalWeight := congrArg (· + _) h.totalWeight
  weightedX := congrArg (· + _) h.weightedX
  weightedY := congrArg (· + _) h.weightedY
  weightedWidth := congrArg (· + _) h.weightedWidth
  weightedHeight := congrArg (· + _) h.weightedHeight
  complement := congrArg (· * _) h.complement
  best := by
    have hbest := h.best
    unfold GroupSums.add
    simp only
    generalize sums.best = best at hbest ⊢
    generalize sums'.best = best' at hbest ⊢
    rcases best with _ | ⟨bestScore, bestDetection⟩ <;>
      rcases best' with _ | ⟨bestScore', bestDetection'⟩ <;> try cases hbest
    · simp only
      split <;> split <;> trivial
    · simp only
      split <;> split <;> trivial
  evidence := by
    change (sums.evidence ++ [_]).map _ = (sums'.evidence ++ [_]).map _
    rw [List.map_append, List.map_append, h.evidence]
    rfl

/-- The outline of a group is made from the outlines of its items. -/
theorem buildGroup_outline (evidence : List (DetectionEvidence F)) :
    DetectionGroup.outline <$> buildGroup (evidence.map DetectionEvidence.outline) =
      DetectionGroup.outline <$> buildGroup evidence := by
  have hfold : ∀ (entries : List (Text × DetectionEvidence F)) {sums sums' : GroupSums F},
      sums.Alike sums' → ((entries.map fun p => (p.1, p.2.outline)).foldl GroupSums.add sums).Alike
        (entries.foldl GroupSums.add sums') := by
    intro entries
    induction entries with
    | nil => exact fun h => h
    | cons entry entries ih => exact fun h => ih (h.add entry.1 entry.2)
  unfold buildGroup
  rw [strongestByProvider_outline]
  have hsums : ((OrdMap.map DetectionEvidence.outline (strongestByProvider evidence)).entries.foldl
      GroupSums.add GroupSums.initial).Alike
        ((strongestByProvider evidence).entries.foldl GroupSums.add GroupSums.initial) :=
    hfold _ ⟨rfl, rfl, rfl, rfl, rfl, rfl, rfl, rfl⟩
  generalize (OrdMap.map DetectionEvidence.outline (strongestByProvider evidence)).entries.foldl
    GroupSums.add GroupSums.initial = sums at hsums ⊢
  generalize (strongestByProvider evidence).entries.foldl
    GroupSums.add GroupSums.initial = sums' at hsums ⊢
  have hbest := hsums.best
  simp only
  generalize sums.best = best at hbest ⊢
  generalize sums'.best = best' at hbest ⊢
  cases best with
  | none =>
    cases best' with
    | none => rfl
    | some _ => cases hbest
  | some entry =>
    cases best' with
    | none => cases hbest
    | some entry' =>
      simp only [hsums.totalWeight]
      split
      · rfl
      · simp only [Functor.map, Except.map, DetectionGroup.outline, hsums.weightedX,
          hsums.weightedY, hsums.weightedWidth, hsums.weightedHeight, hsums.complement,
          hsums.evidence]

/-- **The fusion reads outlines only**, as far as the outlines of its groups go. -/
theorem groupEvidence_outline (std : StdSort) (config : MultiDetectorFusionConfig F)
    (evidence : List (DetectionEvidence F)) :
    List.map DetectionGroup.outline <$>
        groupEvidence std config (evidence.map DetectionEvidence.outline) =
      List.map DetectionGroup.outline <$> groupEvidence std config evidence := by
  have hcut : ∀ result : Except EngineError (List (DetectionGroup F)),
      List.map DetectionGroup.outline <$> (result >>= fun result =>
          pure ((std.sort groupOrder result).take config.maximumGroups)) =
        (fun result => (std.sort groupOrder result).take config.maximumGroups) <$>
          (List.map DetectionGroup.outline <$> result) := by
    intro result
    cases result with
    | error e => rfl
    | ok groups =>
      have hsort : std.sort groupOrder (groups.map DetectionGroup.outline) =
          (std.sort groupOrder groups).map DetectionGroup.outline :=
        std.map DetectionGroup.outline groupOrder groups
      refine congrArg Except.ok ?_
      simp only [hsort, List.map_take]
  have hbuild : ∀ {n : ℕ} (items : Fin n → DetectionEvidence F),
      ((grouped config items).entries.mapM fun entry => buildGroup entry.2) =
        ((grouped config items).entries.map Prod.snd).mapM buildGroup := fun items =>
    (List.mapM_map (f := Prod.snd) (g := buildGroup)).symm
  have hgroups : ∀ {items items' : List (DetectionEvidence F)},
      items' = items.map DetectionEvidence.outline →
      List.map DetectionGroup.outline <$>
          (grouped config items'.get).entries.mapM (fun entry => buildGroup entry.2) =
        List.map DetectionGroup.outline <$>
          (grouped config items.get).entries.mapM fun entry => buildGroup entry.2 := by
    rintro items _ rfl
    have hget : ∀ i : Fin items.length, (items.map DetectionEvidence.outline).get
        (Fin.cast (List.length_map DetectionEvidence.outline).symm i) = (items.get i).outline :=
      fun i => List.getElem_map ..
    rw [hbuild, hbuild, grouped_outline config _ hget, List.mapM_map]
    exact except_mapM_map fun group _ => buildGroup_outline group
  have hdeduplicated := deduplicateSameModel_outline std config evidence
  unfold groupEvidence
  simp only
  rw [hdeduplicated, List.isEmpty_map]
  split
  · rfl
  · rw [hcut, hcut, hgroups (sort_outline std _)]

/-! ## Outlines that sorting cannot tell apart -/

theorem boxOrder_eq : (boxOrder : BoundingBox ℚ → BoundingBox ℚ → Bool) =
    lexOrder BoundingBox.x (· < ·) (lexOrder BoundingBox.y (· < ·)
      (lexOrder BoundingBox.width (· < ·) fun b b' => decide (b.height < b'.height))) := rfl

theorem evidenceOrder_eq : (evidenceOrder : DetectionEvidence ℚ → DetectionEvidence ℚ → Bool) =
    lexOrder DetectionEvidence.provider (· < ·)
      (lexOrder (fun item => item.detection.confidence) (· > ·)
        fun item item' => boxOrder item.detection.bbox item'.detection.bbox) := rfl

theorem boxOrder_tie {b b' : BoundingBox ℚ} (h : boxOrder b b' = false)
    (h' : boxOrder b' b = false) : b = b' := by
  rw [boxOrder_eq] at h h'
  obtain ⟨hx, h, h'⟩ := lexOrder_tie h h'
  obtain ⟨hy, h, h'⟩ := lexOrder_tie h h'
  obtain ⟨hwidth, h, h'⟩ := lexOrder_tie h h'
  have hheight : b.height = b'.height :=
    le_antisymm (not_lt.mp (of_decide_eq_false h')) (not_lt.mp (of_decide_eq_false h))
  obtain ⟨x, y, width, height⟩ := b
  simp only at hx hy hwidth hheight
  rw [hx, hy, hwidth, hheight]

/-- Items the order of evidence cannot tell apart agree in what it compares. -/
theorem evidenceOrder_tie {item item' : DetectionEvidence ℚ} (h : evidenceOrder item item' = false)
    (h' : evidenceOrder item' item = false) :
    item.provider = item'.provider ∧ item.detection.confidence = item'.detection.confidence ∧
      item.detection.bbox = item'.detection.bbox := by
  rw [evidenceOrder_eq] at h h'
  obtain ⟨hprovider, h, h'⟩ := lexOrder_tie h h'
  obtain ⟨hconfidence, h, h'⟩ := lexOrder_tie h h'
  exact ⟨hprovider, hconfidence, boxOrder_tie h h'⟩

theorem strictWeakOrder_boxOrder {α : Type} (bbox : α → BoundingBox ℚ) :
    StrictWeakOrder fun a b : α => boxOrder (bbox a) (bbox b) :=
  have h := strictWeakOrder_key fun a => (bbox a).height
  ((h.lexOrder (κ := ℚ)).lexOrder (κ := ℚ)).lexOrder (κ := ℚ)

/-- The order of evidence is one `std::sort` accepts. -/
theorem strictWeakOrder_evidenceOrder :
    StrictWeakOrder (evidenceOrder : DetectionEvidence ℚ → DetectionEvidence ℚ → Bool) := by
  rw [evidenceOrder_eq]
  exact (strictWeakOrder_boxOrder _).lexOrder.lexOrder

/-- **The groups of an evidence list do not depend on its order**, as far as their outlines go. -/
theorem groupEvidence_perm (std : StdSort) (config : MultiDetectorFusionConfig ℚ)
    {evidence evidence' : List (DetectionEvidence ℚ)} (h : evidence.Perm evidence')
    (hweight : ∀ item ∈ evidence, ∀ item' ∈ evidence, item.provider = item'.provider →
      item.providerWeight = item'.providerWeight) :
    List.map DetectionGroup.outline <$> groupEvidence std config evidence =
      List.map DetectionGroup.outline <$> groupEvidence std config evidence' := by
  have hties : ∀ item ∈ evidence.map DetectionEvidence.outline,
      ∀ item' ∈ evidence.map DetectionEvidence.outline, evidenceOrder item item' = false →
        evidenceOrder item' item = false → item = item' := by
    intro outline houtline outline' houtline' hle hge
    obtain ⟨item, hitem, rfl⟩ := List.mem_map.mp houtline
    obtain ⟨item', hitem', rfl⟩ := List.mem_map.mp houtline'
    obtain ⟨hprovider, hconfidence, hbbox⟩ := evidenceOrder_tie hle hge
    have hproviderWeight := hweight item hitem item' hitem' hprovider
    obtain ⟨⟨bbox, quadrilateral, confidence, geometryScore, name⟩, provider, weight⟩ := item
    obtain ⟨⟨bbox', quadrilateral', confidence', geometryScore', name'⟩, provider', weight'⟩ :=
      item'
    simp only [DetectionEvidence.outline] at hprovider hconfidence hbbox hproviderWeight ⊢
    rw [hprovider, hconfidence, hbbox, hproviderWeight]
  have hsorted : std.sort evidenceOrder (evidence.map DetectionEvidence.outline) =
      std.sort evidenceOrder (evidence'.map DetectionEvidence.outline) :=
    std.sort_eq_of_perm strictWeakOrder_evidenceOrder hties (h.map _)
  have hdeduplicated : deduplicateSameModel std config (evidence.map DetectionEvidence.outline) =
      deduplicateSameModel std config (evidence'.map DetectionEvidence.outline) := by
    unfold deduplicateSameModel
    rw [hsorted]
  rw [← groupEvidence_outline std config evidence, ← groupEvidence_outline std config evidence']
  unfold groupEvidence
  rw [hdeduplicated]

/-! ## What the detectors report -/

end MultiDetectorFusion

/-- From every state, the detector returns these detections, in some order. -/
def PlateDetector.Reports (detector : PlateDetector σ F) (image : ImageView)
    (context : OperationContext) (detections : List (Detection F)) : Prop :=
  ∀ s, ∃ answer s', detector.detect image context s = .ok answer s' ∧ answer.Perm detections

/-- What a registration says of its detector. -/
structure DetectorTerms (F : Type) where
  name : Text
  weight : F
  enabled : Bool

def DetectorRegistration.terms (registration : DetectorRegistration σ F) : DetectorTerms F :=
  ⟨registration.provider.name, registration.weight, registration.enabled⟩

namespace MultiDetectorFusion

/-- A detection the fusion accepts as evidence. -/
def isEvidence (detection : Detection F) : Bool :=
  detection.bbox.isValid && Scalar.isProbability detection.confidence

/-- The evidence a detector is due, from the detections of each name. -/
def due (detections : Text → List (Detection F)) (terms : DetectorTerms F) :
    List (DetectionEvidence F) :=
  if !(!terms.enabled || decide (terms.weight ≤ 0)) then
    (detections terms.name).map fun detection => ⟨detection, terms.name, terms.weight⟩
  else []

theorem foldlM_evidenceStep (registration : DetectorRegistration σ F)
    (detections : List (Detection F)) (evidence : List (DetectionEvidence F)) :
    detections.foldlM (evidenceStep registration) evidence =
      if detections.all isEvidence then .ok (evidence ++ detections.map fun detection =>
        ⟨detection, registration.provider.name, registration.weight⟩)
      else .error (invalidEvidence registration.provider.name) := by
  induction detections generalizing evidence with
  | nil => exact congrArg Except.ok (List.append_nil _).symm
  | cons detection detections ih =>
    have hcheck : (detection.bbox.isValid && Scalar.isProbability detection.confidence) =
      isEvidence detection := rfl
    rw [List.foldlM_cons, evidenceStep, hcheck, List.all_cons]
    cases isEvidence detection with
    | false => rfl
    | true =>
      change detections.foldlM (evidenceStep registration) _ = _
      rw [ih, Bool.true_and, List.append_assoc]
      rfl

/-- `x` adds `items` to the evidence, in some order, and throws unless all of them are evidence. -/
def Collects (x : List (DetectionEvidence F) → Run σ (List (DetectionEvidence F)))
    (items : List (DetectionEvidence F)) : Prop :=
  ∀ evidence s, if items.all (fun item => isEvidence item.detection) then
      ∃ collected s', x evidence s = .ok (evidence ++ collected) s' ∧ collected.Perm items
    else ∃ e s', x evidence s = .error e s'

theorem Collects.bind {x y : List (DetectionEvidence F) → Run σ (List (DetectionEvidence F))}
    {items items' : List (DetectionEvidence F)} (hx : Collects x items) (hy : Collects y items') :
    Collects (fun evidence => x evidence >>= y) (items ++ items') := by
  intro evidence s
  have hfirst := hx evidence s
  rw [List.all_append]
  cases hitems : items.all fun item => isEvidence item.detection with
  | false =>
    rw [hitems] at hfirst
    obtain ⟨e, s', hrun⟩ := hfirst
    exact ⟨e, s', Program.bind_run_error hrun⟩
  | true =>
    rw [hitems] at hfirst
    obtain ⟨collected, s', hrun, hperm⟩ := hfirst
    have hsecond := hy (evidence ++ collected) s'
    have hjoin : (x evidence >>= y) s = y (evidence ++ collected) s' := Program.bind_run_ok hrun
    cases hitems' : items'.all fun item => isEvidence item.detection with
    | false =>
      rw [hitems'] at hsecond
      obtain ⟨e, s'', hrun'⟩ := hsecond
      exact ⟨e, s'', hjoin.trans hrun'⟩
    | true =>
      rw [hitems'] at hsecond
      obtain ⟨collected', s'', hrun', hperm'⟩ := hsecond
      exact ⟨collected ++ collected', s'', by rw [← List.append_assoc]; exact hjoin.trans hrun',
        hperm.append hperm'⟩

theorem collects_detectorStep {image : ImageView} {context : OperationContext}
    {detections : Text → List (Detection F)} {registration : DetectorRegistration σ F}
    (h : registration.provider.Reports image context (detections registration.provider.name)) :
    Collects (fun evidence => detectorStep image context evidence registration)
      (due detections registration.terms) := by
  intro evidence s
  have hdue : due detections registration.terms = if isActive registration then
      (detections registration.provider.name).map fun detection =>
        ⟨detection, registration.provider.name, registration.weight⟩ else [] := rfl
  rw [hdue]
  unfold detectorStep
  cases isActive registration with
  | false => exact ⟨[], s, by rw [List.append_nil]; rfl, .nil⟩
  | true =>
    obtain ⟨answer, s', hrun, hperm⟩ := h s
    have hall : (List.all ((detections registration.provider.name).map fun detection =>
        (⟨detection, registration.provider.name, registration.weight⟩ : DetectionEvidence F))
        fun item => isEvidence item.detection) = answer.all isEvidence := by
      rw [List.all_map, hperm.all_eq]
      rfl
    have hstep : (registration.provider.detect image context >>= fun answer =>
        Run.ofExcept (answer.foldlM (evidenceStep registration) evidence)) s =
        (Run.ofExcept (answer.foldlM (evidenceStep registration) evidence) : Run σ _) s' :=
      Program.bind_run_ok hrun
    rw [foldlM_evidenceStep] at hstep
    simp only [if_true, hall]
    cases hanswer : answer.all isEvidence with
    | false =>
      rw [hanswer] at hstep
      exact ⟨_, s', hstep⟩
    | true =>
      rw [hanswer] at hstep
      exact ⟨_, s', hstep, hperm.map _⟩

/-- **The loop over the detectors** collects what they are due. -/
theorem collects_collectEvidence {image : ImageView} {context : OperationContext}
    {detections : Text → List (Detection F)} {detectors : List (DetectorRegistration σ F)}
    (h : ∀ registration ∈ detectors,
      registration.provider.Reports image context (detections registration.provider.name)) :
    Collects (detectors.foldlM (detectorStep image context))
      ((detectors.map DetectorRegistration.terms).flatMap (due detections)) := by
  induction detectors with
  | nil => exact fun evidence s => ⟨[], s, by rw [List.append_nil]; rfl, .nil⟩
  | cons registration detectors ih =>
    exact (collects_detectorStep (h registration List.mem_cons_self)).bind
      (ih fun other hother => h other (List.mem_cons_of_mem _ hother))

/-! ## The constructor keeps the names apart -/

theorem nodup_names (fusion : MultiDetectorFusion σ F) :
    (fusion.detectors.map fun registration => registration.provider.name).Nodup := by
  have hfold : ∀ {detectors : List (DetectorRegistration σ F)} {names names' : List Text},
      detectors.foldlM checkRegistration names = .ok names' → names.Nodup →
      (names ++ detectors.map fun registration => registration.provider.name).Nodup := by
    intro detectors
    induction detectors with
    | nil => exact fun _ hnames => by rwa [List.map_nil, List.append_nil]
    | cons registration detectors ih =>
      intro names names' hfold hnames
      rw [List.foldlM_cons] at hfold
      obtain ⟨next, hcheck, hrest⟩ := except_bind_eq_ok.mp hfold
      obtain ⟨_, _, hcheck⟩ := except_bind_eq_ok.mp hcheck
      obtain ⟨_, _, hcheck⟩ := except_bind_eq_ok.mp hcheck
      obtain ⟨_, hunique, hcheck⟩ := except_bind_eq_ok.mp hcheck
      obtain rfl := Except.ok.inj hcheck
      have hnew : registration.provider.name ∉ names := by
        simpa using require_eq_ok.mp hunique
      have hnext : (names ++ [registration.provider.name]).Nodup :=
        List.nodup_append.mpr ⟨hnames, List.nodup_singleton _, fun name hname other hother => by
          rw [List.mem_singleton.mp hother]
          exact fun heq => hnew (heq ▸ hname)⟩
      simpa using ih hrest hnext
  obtain ⟨_, _, h⟩ := except_bind_eq_ok.mp fusion.accepted
  obtain ⟨_, _, h⟩ := except_bind_eq_ok.mp h
  obtain ⟨_, _, h⟩ := except_bind_eq_ok.mp h
  obtain ⟨_, _, h⟩ := except_bind_eq_ok.mp h
  obtain ⟨_, _, h⟩ := except_bind_eq_ok.mp h
  obtain ⟨_, _, h⟩ := except_bind_eq_ok.mp h
  obtain ⟨names, h, _⟩ := except_bind_eq_ok.mp h
  simpa using hfold h List.nodup_nil

/-- Evidence of one provider has one weight. -/
theorem weight_of_due {fusion : MultiDetectorFusion σ F} {detections : Text → List (Detection F)}
    {item item' : DetectionEvidence F}
    (hitem : item ∈ (fusion.detectors.map DetectorRegistration.terms).flatMap (due detections))
    (hitem' : item' ∈ (fusion.detectors.map DetectorRegistration.terms).flatMap (due detections))
    (h : item.provider = item'.provider) : item.providerWeight = item'.providerWeight := by
  have hsource : ∀ {item : DetectionEvidence F},
      item ∈ (fusion.detectors.map DetectorRegistration.terms).flatMap (due detections) →
      ∃ registration ∈ fusion.detectors, registration.provider.name = item.provider ∧
        registration.weight = item.providerWeight := by
    intro item hitem
    obtain ⟨terms, hterms, hdue⟩ := List.mem_flatMap.mp hitem
    obtain ⟨registration, hregistration, rfl⟩ := List.mem_map.mp hterms
    refine ⟨registration, hregistration, ?_⟩
    unfold due at hdue
    split at hdue
    · obtain ⟨detection, -, rfl⟩ := List.mem_map.mp hdue
      exact ⟨rfl, rfl⟩
    · exact absurd hdue List.not_mem_nil
  obtain ⟨registration, hregistration, hname, hweight⟩ := hsource hitem
  obtain ⟨registration', hregistration', hname', hweight'⟩ := hsource hitem'
  obtain rfl := List.inj_on_of_nodup_map (nodup_names fusion) hregistration hregistration'
    (hname.trans (h.trans hname'.symm))
  exact hweight.symm.trans hweight'

/-- **Detection groups do not depend on order.**  Two fusions of the same configuration, over the
same registrations in any order, whose detectors report the same detections in any order, return the
same list of outlines, or both throw. -/
theorem detectGroups_of_perm (std : StdSort) {fusion fusion' : MultiDetectorFusion σ ℚ}
    {image : ImageView} {context : OperationContext} (detections : Text → List (Detection ℚ))
    (hconfig : fusion.config = fusion'.config)
    (hterms : (fusion.detectors.map DetectorRegistration.terms).Perm
      (fusion'.detectors.map DetectorRegistration.terms))
    (h : ∀ registration ∈ fusion.detectors,
      registration.provider.Reports image context (detections registration.provider.name))
    (h' : ∀ registration ∈ fusion'.detectors,
      registration.provider.Reports image context (detections registration.provider.name))
    (s s' : σ) :
    ((fusion.detectGroups std image context).returned? s).map (List.map DetectionGroup.outline) =
      ((fusion'.detectGroups std image context).returned? s').map
        (List.map DetectionGroup.outline) := by
  have hdue : ((fusion.detectors.map DetectorRegistration.terms).flatMap (due detections)).Perm
      ((fusion'.detectors.map DetectorRegistration.terms).flatMap (due detections)) :=
    hterms.flatMap_right _
  have hcollects := collects_collectEvidence h [] s
  have hcollects' := collects_collectEvidence h' [] s'
  rw [← hdue.all_eq] at hcollects'
  -- both collections run to their end, or neither does
  cases hall : ((fusion.detectors.map DetectorRegistration.terms).flatMap (due detections)).all
      fun item => isEvidence item.detection with
  | false =>
    rw [hall] at hcollects hcollects'
    obtain ⟨e, t, hrun⟩ := hcollects
    obtain ⟨e', t', hrun'⟩ := hcollects'
    have hthrew : fusion.detectGroups std image context s = .error e t :=
      Program.bind_run_error hrun
    have hthrew' : fusion'.detectGroups std image context s' = .error e' t' :=
      Program.bind_run_error hrun'
    unfold Program.returned?
    rw [hthrew, hthrew']
  | true =>
    rw [hall] at hcollects hcollects'
    obtain ⟨collected, t, hrun, hperm⟩ := hcollects
    obtain ⟨collected', t', hrun', hperm'⟩ := hcollects'
    have hgroups := groupEvidence_perm std fusion.config
      ((hperm.trans hdue).trans hperm'.symm) fun item hitem item' hitem' =>
        weight_of_due (hperm.mem_iff.mp hitem) (hperm.mem_iff.mp hitem')
    have hreturned : ∀ {fusion : MultiDetectorFusion σ ℚ} {collected : List (DetectionEvidence ℚ)}
        {s t : σ}, fusion.collectEvidence image context s = .ok ([] ++ collected) t →
        ((fusion.detectGroups std image context).returned? s).map
            (List.map DetectionGroup.outline) =
          (List.map DetectionGroup.outline <$>
            groupEvidence std fusion.config collected).toOption := by
      intro fusion collected s t hrun
      have hgroups : fusion.detectGroups std image context s =
          Run.ofExcept (groupEvidence std fusion.config collected) t := Program.bind_run_ok hrun
      unfold Program.returned?
      rw [hgroups]
      cases groupEvidence std fusion.config collected <;> rfl
    rw [hreturned hrun, hreturned hrun', hgroups, hconfig]

/-- Two detectors; the first sees two plates. -/
def twoPlates : List (Detection ℚ) :=
  [boxDetection 10 10 100 30 (75 / 100), boxDetection 300 10 100 30 (75 / 100)]

def secondView : List (Detection ℚ) := [boxDetection 12 9 98 31 (85 / 100)]

def orderedFusion : MultiDetectorFusion Frozen ℚ where
  detectors := [⟨fixedDetector "a" twoPlates, 8 / 10, true⟩, ⟨fixedDetector "b" secondView, 1, true⟩]
  config := {}
  accepted := by decide +kernel

/-- The same detectors, registered and answering the other way round. -/
def reversedFusion : MultiDetectorFusion Frozen ℚ where
  detectors := [⟨fixedDetector "b" secondView, 1, true⟩,
    ⟨fixedDetector "a" twoPlates.reverse, 8 / 10, true⟩]
  config := {}
  accepted := by decide +kernel

theorem detectGroups_of_perm_reversed :
    ((orderedFusion.detectGroups .stable tinyImage ⟨none⟩).returned? .frozen).map
        (List.map DetectionGroup.outline) =
      ((reversedFusion.detectGroups .stable tinyImage ⟨none⟩).returned? .frozen).map
        (List.map DetectionGroup.outline) := by
  have hview : ascii "b" ≠ ascii "a" := by decide
  have hterms : (orderedFusion.detectors.map DetectorRegistration.terms).Perm
      (reversedFusion.detectors.map DetectorRegistration.terms) :=
    List.Perm.swap (DetectorTerms.mk (ascii "b") 1 true) (.mk (ascii "a") (8 / 10) true) []
  have hconfig : orderedFusion.config = reversedFusion.config := rfl
  refine detectGroups_of_perm .stable
    (fun name => if name = ascii "a" then twoPlates else secondView) hconfig hterms ?_ ?_ _ _
  · intro registration hregistration s
    rcases List.mem_pair.mp hregistration with rfl | rfl
    · exact ⟨twoPlates, s, rfl, by rw [fixedDetector, if_pos rfl]⟩
    · exact ⟨secondView, s, rfl, by rw [fixedDetector, if_neg hview]⟩
  · intro registration hregistration s
    rcases List.mem_pair.mp hregistration with rfl | rfl
    · exact ⟨secondView, s, rfl, by rw [fixedDetector, if_neg hview]⟩
    · exact ⟨twoPlates.reverse, s, rfl, by
        rw [fixedDetector, if_pos rfl]
        exact List.reverse_perm twoPlates⟩

end MultiDetectorFusion

end FacLpr
