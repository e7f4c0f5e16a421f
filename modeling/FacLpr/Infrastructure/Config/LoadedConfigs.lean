import FacLpr.Infrastructure.Config.JsonConfigAdapter

/-!
# Infrastructure/Config/LoadedConfigs — which documents are configurations, and of what

A document that loads describes its configuration field by field over the defaults (`Describes`,
`loadEngineConfigJson_eq_ok`).  To ignore unknown members is to delete them and to reject
(`parseConfig_prune`).  A document that spells out a valid configuration, all of it or what
differs from the defaults, loads as that configuration (`parseConfig_document`).
-/

namespace FacLpr

namespace JsonConfig

variable {D F σ : Type} [Scalar F]

/-! ## Sections field by field -/

/-- What a section makes of its part of the configuration. -/
def SectionReads (root : Members D) (policy : UnknownFieldPolicy) (key : String)
    (allowed : List String) (fields : List (Field D σ)) (config config' : σ) : Prop :=
  match root.lookup (ascii key) with
  | none => config' = config
  | some (.object members) =>
      (policy = .reject → ∀ member ∈ members, isKnown allowed member.1 = true) ∧
        ∀ field ∈ fields, field.Reads members config config'
  | some _ => False

/-- Nothing is thrown at when every member is known, or when they are ignored. -/
theorem rejectUnknownFields_eq_ok {object : Members D} {scope : String} {allowed : List String}
    {policy : UnknownFieldPolicy} {u : Unit} :
    rejectUnknownFields object scope allowed policy = .ok u ↔
      (policy = .reject → ∀ member ∈ object, isKnown allowed member.1 = true) := by
  cases policy with
  | ignore => exact ⟨fun _ h => (by cases h), fun _ => rfl⟩
  | reject => exact except_forM_eq_ok.trans (by simp only [require_eq_ok, forall_const])

/-- A section that is read has known members, and each field from its member. -/
theorem applySection_eq_ok {scope : String} {allowed : List String} {fields : List (Field D σ)}
    (hfields : RecordField.Separate fields) {policy : UnknownFieldPolicy} {members : Members D}
    {config config' : σ} :
    applySection scope allowed fields policy members config = .ok config' ↔
      (policy = .reject → ∀ member ∈ members, isKnown allowed member.1 = true) ∧
        ∀ field ∈ fields, field.Reads members config config' := by
  rw [applySection, except_bind_eq_ok]
  simp only [rejectUnknownFields_eq_ok, RecordField.readMembers_eq_ok hfields]
  exact ⟨fun ⟨_, h⟩ => h, fun h => ⟨(), h⟩⟩

/-- A section that is not there keeps its defaults. -/
theorem readSection_eq_ok {root : Members D} {key scope : String} {allowed : List String}
    {fields : List (Field D σ)} (hfields : RecordField.Separate fields)
    {policy : UnknownFieldPolicy} {config config' : σ} :
    readSection root key (applySection scope allowed fields policy) config = .ok config' ↔
      SectionReads root policy key allowed fields config config' := by
  unfold readSection optionalObject SectionReads
  cases hlookup : root.lookup (ascii key) with
  | none => exact ⟨fun h => (Except.ok.inj h).symm, fun h => congrArg _ h.symm⟩
  | some value =>
    cases value with
    | object members => exact applySection_eq_ok hfields
    | _ => exact ⟨fun h => (by cases h), False.elim⟩

/-- The fields of each section are kept apart, and are the whole of its part. -/
theorem separate_detectorFields (lib : Library D F) :
    RecordField.Separate (detectorFields lib) where
  spares := by
    simp only [detectorFields, List.pairwise_cons, List.forall_mem_cons, List.not_mem_nil,
      false_imp_iff, implies_true, List.Pairwise.nil, and_true]
    repeat' apply And.intro
    all_goals exact fun _ _ => rfl
  ext s s' h := by
    simp only [detectorFields, List.forall_mem_cons] at h
    obtain ⟨h₁, h₂, h₃, h₄, h₅, h₆, h₇, -⟩ := h
    exact DetectorConfig.ext h₁ h₂ h₃ h₄ h₅ h₆ h₇

/-- Those of the recognition section. -/
theorem separate_recognitionFields (lib : Library D F) :
    RecordField.Separate (recognitionFields lib) where
  spares := by
    simp only [recognitionFields, List.pairwise_cons, List.forall_mem_cons, List.not_mem_nil,
      false_imp_iff, implies_true, List.Pairwise.nil, and_true]
    repeat' apply And.intro
    all_goals exact fun _ _ => rfl
  ext s s' h := by
    simp only [recognitionFields, List.forall_mem_cons] at h
    obtain ⟨h₁, h₂, h₃, h₄, h₅, -⟩ := h
    exact RecognitionConfig.ext h₁ h₂ h₃ h₄ h₅

/-- Those of the crop section. -/
theorem separate_cropFields (lib : Library D F) :
    RecordField.Separate (cropFields lib) where
  spares := by
    simp only [cropFields, List.pairwise_cons, List.forall_mem_cons, List.not_mem_nil,
      false_imp_iff, implies_true, List.Pairwise.nil, and_true]
    repeat' apply And.intro
    all_goals exact fun _ _ => rfl
  ext s s' h := by
    simp only [cropFields, List.forall_mem_cons] at h
    obtain ⟨h₁, h₂, h₃, h₄, h₅, h₆, h₇, h₈, h₉, -⟩ := h
    exact CropConfig.ext h₁ h₂ h₃ h₄ h₅ h₆ h₇ h₈ h₉

/-- Those of the decision section. -/
theorem separate_decisionFields (lib : Library D F) :
    RecordField.Separate (decisionFields lib) where
  spares := by
    simp only [decisionFields, List.pairwise_cons, List.forall_mem_cons, List.not_mem_nil,
      false_imp_iff, implies_true, List.Pairwise.nil, and_true]
    repeat' apply And.intro
    all_goals exact fun _ _ => rfl
  ext s s' h := by
    simp only [decisionFields, List.forall_mem_cons] at h
    obtain ⟨h₁, h₂, h₃, h₄, h₅, h₆, h₇, h₈, -⟩ := h
    exact DecisionConfig.ext h₁ h₂ h₃ h₄ h₅ h₆ h₇ h₈

omit [Scalar F] in
/-- Those of the performance section, which sets its limits in the part that keeps them. -/
theorem separate_performanceFields (lib : Library D F) :
    RecordField.Separate (performanceFields lib) where
  spares := by
    simp only [performanceFields, List.pairwise_cons, List.forall_mem_cons, List.not_mem_nil,
      false_imp_iff, implies_true, List.Pairwise.nil, and_true]
    repeat' apply And.intro
    all_goals exact fun _ _ => rfl
  ext s s' h := by
    simp only [performanceFields, List.forall_mem_cons] at h
    obtain ⟨h₁, h₂, h₃, h₄, h₅, h₆, -⟩ := h
    exact PerformanceConfig.ext h₃ h₄ h₅ h₁ h₂ h₆

/-! ## Which documents load -/

/-- **What a document says**: its schema, and each field of the configuration, the defaults being
those of the source. -/
structure Describes (lib : Library D F) (policy : UnknownFieldPolicy) (root : Members D)
    (config : EngineConfig F) : Prop where
  known : policy = .reject → ∀ member ∈ root, isKnown rootAllowed member.1 = true
  version : ∃ schema, root.lookup (ascii "schema_version") = some schema ∧
    schema.isInteger = true ∧ lib.getInteger schema = 1
  detector : SectionReads root policy "detector" detectorAllowed (detectorFields lib) {}
    config.detector
  recognition : SectionReads root policy "recognition" recognitionAllowed (recognitionFields lib)
    {} config.recognition
  crop : SectionReads root policy "crop" cropAllowed (cropFields lib) {} config.crop
  decision : SectionReads root policy "decision" decisionAllowed (decisionFields lib) {}
    config.decision
  performance : SectionReads root policy "performance" performanceAllowed (performanceFields lib) {}
    config.performance
  valid : config.Valid

omit [Scalar F] in
/-- The schema is the one integer that is supported. -/
theorem checkSchema_eq_ok {lib : Library D F} {root : Members D} {u : Unit} :
    checkSchema lib root = .ok u ↔
      ∃ schema, root.lookup (ascii "schema_version") = some schema ∧
        schema.isInteger = true ∧ lib.getInteger schema = 1 := by
  unfold checkSchema
  cases root.lookup (ascii "schema_version") with
  | none => exact ⟨fun h => (by cases h), fun ⟨_, h, _⟩ => (by cases h)⟩
  | some schema =>
    simp only [Option.some.injEq, exists_eq_left', except_bind_eq_ok, require_eq_ok, exists_const,
      beq_iff_eq]
    exact and_congr_right fun _ =>
      ⟨fun h => Int64.toInt_inj.mp h, fun h => congrArg Int64.toInt h⟩

/-- **A document loads as what it describes.** -/
theorem parseConfig_eq_ok {lib : Library D F} {policy : UnknownFieldPolicy} {document : Document D}
    {config : EngineConfig F} :
    parseConfig lib policy document = .ok config ↔
      ∃ root, document = .object root ∧ Describes lib policy root config := by
  cases document with
  | object root =>
    simp only [parseConfig, except_bind_eq_ok, applyDetector, applyRecognition, applyCrop,
      applyDecision, applyPerformance, rejectUnknownFields_eq_ok, checkSchema_eq_ok,
      readSection_eq_ok (separate_detectorFields lib),
      readSection_eq_ok (separate_recognitionFields lib),
      readSection_eq_ok (separate_cropFields lib), readSection_eq_ok (separate_decisionFields lib),
      readSection_eq_ok (separate_performanceFields lib), validateEngineConfig_eq_ok]
    constructor
    · rintro ⟨-, hknown, -, hversion, detector, hdetector, recognition, hrecognition, crop, hcrop,
        decision, hdecision, performance, hperformance, -, hvalid, hconfig⟩
      obtain rfl := Except.ok.inj hconfig
      exact ⟨root, rfl, hknown, hversion, hdetector, hrecognition, hcrop, hdecision, hperformance,
        hvalid⟩
    · rintro ⟨root', hroot, h⟩
      obtain rfl := Document.object.inj hroot
      exact ⟨(), h.known, (), h.version, _, h.detector, _, h.recognition, _, h.crop, _, h.decision,
        _, h.performance, (), h.valid, rfl⟩
  | _ => exact ⟨fun h => (by cases h), fun ⟨_, h, _⟩ => (by cases h)⟩

/-- **A text loads exactly when it parses into a document that describes a valid configuration**,
and then as that configuration. -/
theorem loadEngineConfigJson_eq_ok {lib : Library D F} {policy : UnknownFieldPolicy}
    {jsonText : Text} {config : EngineConfig F} :
    loadEngineConfigJson lib policy jsonText = .ok config ↔
      jsonText ≠ [] ∧ ∃ root, lib.parse jsonText = .ok (.object root) ∧
        Describes lib policy root config := by
  unfold loadEngineConfigJson
  cases jsonText with
  | nil => exact ⟨fun h => (by cases h), fun h => absurd rfl h.1⟩
  | cons b rest =>
    rw [if_neg (by simp)]
    cases hparse : lib.parse (b :: rest) with
    | error what => exact ⟨fun h => (by cases h), fun ⟨_, _, h, _⟩ => (by cases h)⟩
    | ok document =>
      refine parseConfig_eq_ok.trans ⟨fun ⟨root, hroot, h⟩ => ?_, fun ⟨_, root, hroot, h⟩ => ?_⟩
      · exact ⟨List.cons_ne_nil _ _, root, congrArg _ hroot, h⟩
      · exact ⟨root, Except.ok.inj hroot, h⟩

/-! ## Unknown members -/

/-- The sections, and the keys each knows. -/
def sections : List (Text × List String) :=
  [(ascii "detector", detectorAllowed), (ascii "recognition", recognitionAllowed),
    (ascii "crop", cropAllowed), (ascii "decision", decisionAllowed),
    (ascii "performance", performanceAllowed)]

/-- The members whose keys are known. -/
def keep (allowed : List String) (members : Members D) : Members D :=
  members.filter fun member => isKnown allowed member.1

/-- A section without the members it does not know. -/
def pruneSection (key : Text) (value : Document D) : Document D :=
  match value, sections.lookup key with
  | .object members, some allowed => .object (keep allowed members)
  | value, _ => value

/-- The members of the root that are known, pruned. -/
def pruned (root : Members D) : Members D :=
  (keep rootAllowed root).map fun member => (member.1, pruneSection member.1 member.2)

/-- The document without the members that no section knows. -/
def prune : Document D → Document D
  | .object root => .object (pruned root)
  | document => document

theorem rejectUnknownFields_keep (scope : String) (allowed : List String) (members : Members D) :
    rejectUnknownFields (keep allowed members) scope allowed .reject = .ok () :=
  rejectUnknownFields_eq_ok.mpr fun _ _ hmember => (List.mem_filter.mp hmember).2

/-- A known member is found as before. -/
theorem lookup_keep {allowed : List String} {key : Text} (hkey : isKnown allowed key = true)
    (members : Members D) : (keep allowed members).lookup key = members.lookup key :=
  lookup_filter_fst hkey members

/-- A section knows the keys of its fields. -/
theorem isKnown_of_keys {allowed : List String} {fields : List (Field D σ)}
    (h : fields.map RecordField.key = allowed.map ascii) :
    ∀ field ∈ fields, isKnown allowed field.key = true := by
  intro field hfield
  have hkey : field.key ∈ allowed.map ascii := h ▸ List.mem_map_of_mem hfield
  obtain ⟨name, hname, hascii⟩ := List.mem_map.mp hkey
  exact List.any_eq_true.mpr ⟨name, hname, beq_iff_eq.mpr hascii.symm⟩

/-- A section reads the same of its known members. -/
theorem applySection_keep {scope : String} {allowed : List String} {fields : List (Field D σ)}
    (hfields : ∀ field ∈ fields, isKnown allowed field.key = true) (members : Members D)
    (config : σ) :
    applySection scope allowed fields .reject (keep allowed members) config =
      applySection scope allowed fields .ignore members config := by
  unfold applySection
  rw [rejectUnknownFields_keep, rejectUnknownFields]
  exact RecordField.readMembers_congr (fun f hf => lookup_keep (hfields f hf) members) config

/-- A known member of the root is found pruned. -/
theorem lookup_pruned {key : Text} (hkey : isKnown rootAllowed key = true) (root : Members D) :
    (pruned root).lookup key = (root.lookup key).map (pruneSection key) := by
  rw [pruned, lookup_map_snd, lookup_keep hkey]

theorem rejectUnknownFields_pruned (root : Members D) (scope : String) :
    rejectUnknownFields (pruned root) scope rootAllowed .reject = .ok () := by
  refine rejectUnknownFields_eq_ok.mpr fun _ member hmember => ?_
  obtain ⟨kept, hkept, rfl⟩ := List.mem_map.mp hmember
  exact (List.mem_filter.mp hkept).2

/-- So every section reads the same of the pruned root. -/
theorem readSection_pruned {key : String} {allowed : List String} {fields : List (Field D σ)}
    (hroot : isKnown rootAllowed (ascii key) = true)
    (hsection : sections.lookup (ascii key) = some allowed)
    (hkeys : fields.map RecordField.key = allowed.map ascii) (scope : String) (root : Members D)
    (config : σ) :
    readSection (pruned root) key (applySection scope allowed fields .reject) config =
      readSection root key (applySection scope allowed fields .ignore) config := by
  unfold readSection optionalObject
  rw [lookup_pruned hroot]
  cases root.lookup (ascii key) with
  | none => rfl
  | some value =>
    cases value with
    | object members =>
      simp only [Option.map_some, pruneSection, hsection]
      exact applySection_keep (isKnown_of_keys hkeys) members config
    | _ => rfl

omit [Scalar F] in
/-- The schema is no section, so it is kept. -/
theorem checkSchema_pruned (lib : Library D F) (root : Members D) :
    checkSchema lib (pruned root) = checkSchema lib root := by
  have hkey : isKnown rootAllowed (ascii "schema_version") = true := by decide +kernel
  have hsection : sections.lookup (ascii "schema_version") = none := by decide +kernel
  unfold checkSchema
  rw [lookup_pruned hkey]
  cases root.lookup (ascii "schema_version") with
  | none => rfl
  | some value => cases value <;> simp only [Option.map_some, pruneSection, hsection]

/-- **To ignore unknown members is to delete them and to reject**: the two agree on the
configuration, and on the error. -/
theorem parseConfig_prune (lib : Library D F) (document : Document D) :
    parseConfig lib .reject (prune document) = parseConfig lib .ignore document := by
  cases document with
  | object root =>
    have hknown : ∀ key ∈ rootAllowed, isKnown rootAllowed (ascii key) = true := by decide +kernel
    have hdetector : readSection (pruned root) "detector" (applyDetector lib .reject) {} =
        readSection root "detector" (applyDetector lib .ignore) ({} : DetectorConfig F) :=
      readSection_pruned (hknown _ (by decide)) (by decide +kernel) rfl _ root _
    have hrecognition : readSection (pruned root) "recognition" (applyRecognition lib .reject) {} =
        readSection root "recognition" (applyRecognition lib .ignore) ({} : RecognitionConfig F) :=
      readSection_pruned (hknown _ (by decide)) (by decide +kernel) rfl _ root _
    have hcrop : readSection (pruned root) "crop" (applyCrop lib .reject) {} =
        readSection root "crop" (applyCrop lib .ignore) ({} : CropConfig F) :=
      readSection_pruned (hknown _ (by decide)) (by decide +kernel) rfl _ root _
    have hdecision : readSection (pruned root) "decision" (applyDecision lib .reject) {} =
        readSection root "decision" (applyDecision lib .ignore) ({} : DecisionConfig F) :=
      readSection_pruned (hknown _ (by decide)) (by decide +kernel) rfl _ root _
    have hperformance : readSection (pruned root) "performance" (applyPerformance lib .reject) {} =
        readSection root "performance" (applyPerformance lib .ignore) ({} : PerformanceConfig) :=
      readSection_pruned (hknown _ (by decide)) (by decide +kernel) rfl _ root _
    simp only [prune, parseConfig, rejectUnknownFields_pruned, checkSchema_pruned, hdetector,
      hrecognition, hcrop, hdecision, hperformance]
    rfl
  | _ => rfl

/-! ## Spelling a configuration out -/

/-- The members of the detector section, each with the value of its field. -/
def detectorMembers (widen : F → D) (config : DetectorConfig F) : Members D :=
  [(ascii "confidence_threshold", .floating (widen config.confidenceThreshold)),
    (ascii "nms_iou_threshold", .floating (widen config.nmsIouThreshold)),
    (ascii "max_detections", .unsigned (UInt64.ofNat config.maxDetections)),
    (ascii "adaptive_tiling", .boolean config.adaptiveTiling),
    (ascii "tile_width", .unsigned (UInt64.ofNat config.tileWidth)),
    (ascii "tile_height", .unsigned (UInt64.ofNat config.tileHeight)),
    (ascii "tile_overlap_ratio", .floating (widen config.tileOverlapRatio))]

/-- Of the recognition section. -/
def recognitionMembers (widen : F → D) (config : RecognitionConfig F) : Members D :=
  [(ascii "beam_width", .unsigned (UInt64.ofNat config.beamWidth)),
    (ascii "result_limit", .unsigned (UInt64.ofNat config.resultLimit)),
    (ascii "classes_per_step", .unsigned (UInt64.ofNat config.classesPerStep)),
    (ascii "max_recognizers", .unsigned (UInt64.ofNat config.maxRecognizers)),
    (ascii "minimum_candidate_confidence", .floating (widen config.minimumCandidateConfidence))]

/-- Of the crop section. -/
def cropMembers (widen : F → D) (config : CropConfig F) : Members D :=
  [(ascii "max_hypotheses", .unsigned (UInt64.ofNat config.maxHypotheses)),
    (ascii "horizontal_padding_ratio", .floating (widen config.horizontalPaddingRatio)),
    (ascii "vertical_padding_ratio", .floating (widen config.verticalPaddingRatio)),
    (ascii "minimum_width", .unsigned (UInt64.ofNat config.minimumWidth)),
    (ascii "minimum_height", .unsigned (UInt64.ofNat config.minimumHeight)),
    (ascii "enable_clahe", .boolean config.enableClahe),
    (ascii "enable_sharpen", .boolean config.enableSharpen),
    (ascii "enable_adaptive_threshold", .boolean config.enableAdaptiveThreshold),
    (ascii "enable_double_row", .boolean config.enableDoubleRow)]

/-- Of the decision section. -/
def decisionMembers (widen : F → D) (config : DecisionConfig F) : Members D :=
  [(ascii "accepted_confidence_threshold", .floating (widen config.acceptedConfidenceThreshold)),
    (ascii "review_confidence_threshold", .floating (widen config.reviewConfidenceThreshold)),
    (ascii "strong_conflict_threshold", .floating (widen config.strongConflictThreshold)),
    (ascii "minimum_crop_quality", .floating (widen config.minimumCropQuality)),
    (ascii "minimum_geometry_score", .floating (widen config.minimumGeometryScore)),
    (ascii "minimum_effective_detector_confidence",
      .floating (widen config.minimumEffectiveDetectorConfidence)),
    (ascii "allow_accept_when_degraded", .boolean config.allowAcceptWhenDegraded),
    (ascii "fail_closed", .boolean config.failClosed)]

/-- Of the performance section. -/
def performanceMembers (config : PerformanceConfig) : Members D :=
  [(ascii "worker_count", .unsigned (UInt64.ofNat config.workerCount)),
    (ascii "queue_capacity", .unsigned (UInt64.ofNat config.queueCapacity)),
    (ascii "max_image_width", .unsigned (UInt64.ofNat config.maxImageWidth)),
    (ascii "max_image_height", .unsigned (UInt64.ofNat config.maxImageHeight)),
    (ascii "max_image_bytes", .unsigned (UInt64.ofNat config.maxImageBytes)),
    (ascii "recognition_timeout_ms", .unsigned (UInt64.ofNat config.recognitionTimeout.toNat))]

/-- The members of a section that are written. -/
def writeSection (written : Text → Bool) (members : Members D) : Document D :=
  .object (members.filter fun member => written member.1)

/-- A configuration as a document, of the members that are `written`. -/
def documentMembers (widen : F → D) (written : String → Text → Bool) (config : EngineConfig F) :
    Members D :=
  [(ascii "schema_version", .unsigned 1),
    (ascii "detector", writeSection (written "detector") (detectorMembers widen config.detector)),
    (ascii "recognition",
      writeSection (written "recognition") (recognitionMembers widen config.recognition)),
    (ascii "crop", writeSection (written "crop") (cropMembers widen config.crop)),
    (ascii "decision", writeSection (written "decision") (decisionMembers widen config.decision)),
    (ascii "performance",
      writeSection (written "performance") (performanceMembers config.performance))]

/-- That document, as a value of the library. -/
def document (widen : F → D) (written : String → Text → Bool) (config : EngineConfig F) :
    Document D :=
  .object (documentMembers widen written config)

/-- What is left out has its default value. -/
structure LeavesDefaults (lib : Library D F) (written : String → Text → Bool)
    (config : EngineConfig F) : Prop where
  detector : ∀ field ∈ detectorFields lib, written "detector" field.key = false →
    field.get config.detector = field.get {}
  recognition : ∀ field ∈ recognitionFields lib, written "recognition" field.key = false →
    field.get config.recognition = field.get {}
  crop : ∀ field ∈ cropFields lib, written "crop" field.key = false →
    field.get config.crop = field.get {}
  decision : ∀ field ∈ decisionFields lib, written "decision" field.key = false →
    field.get config.decision = field.get {}
  performance : ∀ field ∈ performanceFields lib, written "performance" field.key = false →
    field.get config.performance = field.get {}

/-- The sizes that validation does not bound are integers of 64 bits. -/
structure Spellable (config : EngineConfig F) : Prop where
  maxDetections : config.detector.maxDetections < 2 ^ 63
  tileWidth : config.detector.tileWidth < 2 ^ 63
  tileHeight : config.detector.tileHeight < 2 ^ 63
  beamWidth : config.recognition.beamWidth < 2 ^ 63
  minimumWidth : config.crop.minimumWidth < 2 ^ 63
  minimumHeight : config.crop.minimumHeight < 2 ^ 63

/-- What fits in 63 bits is not wrapped. -/
theorem toInt_toInt64_ofNat {n : ℕ} (h : n < 2 ^ 63) : (UInt64.ofNat n).toInt64.toInt = n := by
  have hlt : n < 2 ^ 64 := by omega
  rw [← Int64.toInt_toBitVec, UInt64.toBitVec_toInt64, BitVec.toInt_eq_toNat_of_lt]
  · simp only [UInt64.toNat_toBitVec, UInt64.toNat_ofNat']
    rw [Nat.mod_eq_of_lt hlt]
  · simp only [UInt64.toNat_toBitVec, UInt64.toNat_ofNat']
    rw [Nat.mod_eq_of_lt hlt]
    omega

omit [Scalar F] in
/-- A size of 63 bits is read back. -/
theorem readSize_unsigned {lib : Library D F} (hlib : lib.Documented) {key : String} {n : ℕ}
    (h : n < 2 ^ 63) : readSize lib key (.unsigned (UInt64.ofNat n)) = .ok n := by
  have hneg : ¬ (n : ℤ) < 0 := by omega
  simp only [readSize, Document.isInteger, hlib.getInteger_unsigned, toInt_toInt64_ofNat h, hneg,
    decide_false]
  rfl

omit [Scalar F] in
/-- And a timeout. -/
theorem readTimeout_unsigned {lib : Library D F} (hlib : lib.Documented) {t : ℤ} (hpos : 0 < t)
    (hlt : t < 2 ^ 63) : readTimeout lib (.unsigned (UInt64.ofNat t.toNat)) = .ok t := by
  have hnat : t.toNat < 2 ^ 63 := by omega
  have hcast : (t.toNat : ℤ) = t := Int.toNat_of_nonneg hpos.le
  have hneg : ¬ t ≤ 0 := by omega
  simp only [readTimeout, Document.isInteger, hlib.getInteger_unsigned, toInt_toInt64_ofNat hnat,
    hcast, hneg, decide_false]
  rfl

/-- A member spells out the value of its field. -/
def Spells (config : σ) (field : Field D σ) (member : Text × Document D) : Prop :=
  field.key = member.1 ∧ field.read member.2 = .ok (field.get config)

/-- The members have the keys of the fields. -/
theorem keys_of_spells {config : σ} {fields : List (Field D σ)} {members : Members D}
    (h : List.Forall₂ (Spells config) fields members) :
    fields.map RecordField.key = members.map Prod.fst := by
  induction h with
  | nil => rfl
  | cons hhead _ ih => rw [List.map_cons, List.map_cons, hhead.1, ih]

/-- Every field has a member that it reads its value from. -/
theorem exists_spelled {config : σ} {field : Field D σ} :
    ∀ {fields : List (Field D σ)} {members : Members D},
      List.Forall₂ (Spells config) fields members → field ∈ fields →
      ∃ v, (field.key, v) ∈ members ∧ field.read v = .ok (field.get config)
  | _ :: _, member :: _, .cons hhead htail, hfield => by
      rcases List.mem_cons.mp hfield with rfl | hfield
      · exact ⟨member.2, List.mem_cons.mpr (Or.inl (Prod.ext hhead.1 rfl)), hhead.2⟩
      · obtain ⟨v, hv, hread⟩ := exists_spelled htail hfield
        exact ⟨v, List.mem_cons_of_mem _ hv, hread⟩

/-- What is written of a section, over the defaults, is the section. -/
theorem reads_of_spells {fields : List (Field D σ)} {members : Members D} {written : Text → Bool}
    {config config' : σ} (h : List.Forall₂ (Spells config') fields members)
    (hnodup : (fields.map RecordField.key).Nodup)
    (hdefaults : ∀ field ∈ fields, written field.key = false →
      field.get config' = field.get config) :
    ∀ field ∈ fields,
      field.Reads (members.filter fun member => written member.1) config config' := by
  intro field hfield
  unfold RecordField.Reads
  cases hwritten : written field.key with
  | false =>
    rw [lookup_filter_fst_eq_none hwritten]
    exact hdefaults field hfield hwritten
  | true =>
    obtain ⟨v, hv, hread⟩ := exists_spelled h hfield
    rw [lookup_filter_fst hwritten, lookup_of_mem_nodup (keys_of_spells h ▸ hnodup) hv]
    exact hread

/-- And the section is read from the document. -/
theorem sectionReads_of_spells {root : Members D} {policy : UnknownFieldPolicy} {key : String}
    {allowed : List String} {fields : List (Field D σ)} {members : Members D}
    {written : Text → Bool} {config config' : σ}
    (hroot : root.lookup (ascii key) = some (writeSection written members))
    (hkeys : fields.map RecordField.key = allowed.map ascii) (hnodup : (allowed.map ascii).Nodup)
    (h : List.Forall₂ (Spells config') fields members)
    (hdefaults : ∀ field ∈ fields, written field.key = false →
      field.get config' = field.get config) :
    SectionReads root policy key allowed fields config config' := by
  unfold SectionReads
  rw [hroot]
  refine ⟨fun _ member hmember => ?_, reads_of_spells h (hkeys ▸ hnodup) hdefaults⟩
  have hmem : member.1 ∈ fields.map RecordField.key :=
    keys_of_spells h ▸ List.mem_map_of_mem (List.mem_filter.mp hmember).1
  obtain ⟨field, hfield, hkey⟩ := List.mem_map.mp hmem
  exact hkey ▸ isKnown_of_keys hkeys field hfield

section

omit [Scalar F]

variable {lib : Library D F} (hlib : lib.Documented)

include hlib

/-- Each kind of field reads what is written of it. -/
theorem spells_boolField (config : σ) (key : String) {get : σ → Bool}
    {set : σ → Bool → σ} {get_set : ∀ s x, get (set s x) = x} :
    Spells config (boolField lib key get set get_set) (ascii key, .boolean (get config)) := by
  refine ⟨rfl, ?_⟩
  change readOptional key lib.getBool _ = _
  rw [readOptional, hlib.getBool_boolean]
  rfl

theorem spells_sizeField {config : σ} {key : String} {get : σ → ℕ} {set : σ → ℕ → σ}
    {get_set : ∀ s x, get (set s x) = x} (h : get config < 2 ^ 63) :
    Spells config (sizeField lib key get set get_set)
      (ascii key, .unsigned (UInt64.ofNat (get config))) :=
  ⟨rfl, readSize_unsigned hlib h⟩

theorem spells_floatField {widen : F → D} (hwiden : ∀ x, lib.narrow (widen x) = x) (config : σ)
    (key : String) {get : σ → F} {set : σ → F → σ} {get_set : ∀ s x, get (set s x) = x} :
    Spells config (floatField lib key get set get_set)
      (ascii key, .floating (widen (get config))) := by
  refine ⟨rfl, ?_⟩
  change readOptional key lib.getFloat _ = _
  rw [readOptional, hlib.getFloat_floating, hwiden]
  rfl

theorem spells_performanceMembers {config : PerformanceConfig} (hvalid : config.Valid) :
    List.Forall₂ (Spells config) (performanceFields lib) (performanceMembers config) := by
  obtain ⟨hworkers, hqueue, hwidth, hheight, hbytes, htimeout⟩ := hvalid
  exact .cons (spells_sizeField hlib (by omega)) <| .cons (spells_sizeField hlib (by omega)) <|
    .cons (spells_sizeField hlib (by omega)) <| .cons (spells_sizeField hlib (by omega)) <|
    .cons (spells_sizeField hlib (by omega)) <|
    .cons ⟨rfl, readTimeout_unsigned hlib htimeout.1 (by omega)⟩ .nil

end

section

variable {lib : Library D F} (hlib : lib.Documented) {widen : F → D}
  (hwiden : ∀ x, lib.narrow (widen x) = x)

include hlib hwiden

/-- So every section spells its part out. -/
theorem spells_detectorMembers {config : EngineConfig F} (h : Spellable config) :
    List.Forall₂ (Spells config.detector) (detectorFields lib)
      (detectorMembers widen config.detector) :=
  .cons (spells_floatField hlib hwiden ..) <| .cons (spells_floatField hlib hwiden ..) <|
    .cons (spells_sizeField hlib h.maxDetections) <| .cons (spells_boolField hlib ..) <|
    .cons (spells_sizeField hlib h.tileWidth) <| .cons (spells_sizeField hlib h.tileHeight) <|
    .cons (spells_floatField hlib hwiden ..) .nil

theorem spells_recognitionMembers {config : EngineConfig F} (h : Spellable config)
    (hvalid : config.recognition.Valid) :
    List.Forall₂ (Spells config.recognition) (recognitionFields lib)
      (recognitionMembers widen config.recognition) := by
  have hbeam := h.beamWidth
  have hlimit := hvalid.resultLimit.2
  have hclasses := hvalid.classesPerStep.2
  have hrecognizers := hvalid.maxRecognizers.2
  exact .cons (spells_sizeField hlib hbeam) <| .cons (spells_sizeField hlib (by omega)) <|
    .cons (spells_sizeField hlib (by omega)) <| .cons (spells_sizeField hlib (by omega)) <|
    .cons (spells_floatField hlib hwiden ..) .nil

theorem spells_cropMembers {config : EngineConfig F} (h : Spellable config)
    (hvalid : config.crop.Valid) :
    List.Forall₂ (Spells config.crop) (cropFields lib) (cropMembers widen config.crop) := by
  have hhypotheses := hvalid.maxHypotheses.2
  exact .cons (spells_sizeField hlib (by omega)) <| .cons (spells_floatField hlib hwiden ..) <|
    .cons (spells_floatField hlib hwiden ..) <| .cons (spells_sizeField hlib h.minimumWidth) <|
    .cons (spells_sizeField hlib h.minimumHeight) <| .cons (spells_boolField hlib ..) <|
    .cons (spells_boolField hlib ..) <| .cons (spells_boolField hlib ..) <|
    .cons (spells_boolField hlib ..) .nil

theorem spells_decisionMembers (config : DecisionConfig F) :
    List.Forall₂ (Spells config) (decisionFields lib) (decisionMembers widen config) :=
  .cons (spells_floatField hlib hwiden ..) <| .cons (spells_floatField hlib hwiden ..) <|
    .cons (spells_floatField hlib hwiden ..) <| .cons (spells_floatField hlib hwiden ..) <|
    .cons (spells_floatField hlib hwiden ..) <| .cons (spells_floatField hlib hwiden ..) <|
    .cons (spells_boolField hlib ..) <| .cons (spells_boolField hlib ..) .nil

end

/-- The members of the document are found under their keys. -/
theorem lookup_documentMembers {widen : F → D} {written : String → Text → Bool}
    {config : EngineConfig F} {key : Text} {v : Document D}
    (h : (key, v) ∈ documentMembers widen written config) :
    (documentMembers widen written config).lookup key = some v := by
  have hkeys : (documentMembers widen written config).map Prod.fst = rootAllowed.map ascii := rfl
  have hnodup : (rootAllowed.map ascii).Nodup := by decide +kernel
  exact lookup_of_mem_nodup (hkeys ▸ hnodup) h

/-- **Round trip.**  A document that spells out a valid configuration, or what of it is not a
default, loads as that configuration under either policy. -/
theorem parseConfig_document {lib : Library D F} (hlib : lib.Documented) {widen : F → D}
    (hwiden : ∀ x, lib.narrow (widen x) = x) {config : EngineConfig F} (hvalid : config.Valid)
    (hspellable : Spellable config) {written : String → Text → Bool}
    (hwritten : LeavesDefaults lib written config) (policy : UnknownFieldPolicy) :
    parseConfig lib policy (document widen written config) = .ok config := by
  have hlookup {key : Text} {v : Document D} :
      (key, v) ∈ documentMembers widen written config → _ = some v := lookup_documentMembers
  refine parseConfig_eq_ok.mpr ⟨_, rfl, ⟨fun _ => ?_, ?_, ?_, ?_, ?_, ?_, ?_, hvalid⟩⟩
  · have hknown : ∀ key ∈ rootAllowed, isKnown rootAllowed (ascii key) = true := by decide +kernel
    intro member hmember
    have hkey : member.1 ∈ rootAllowed.map ascii := List.mem_map_of_mem (f := Prod.fst) hmember
    obtain ⟨key, hkey, hascii⟩ := List.mem_map.mp hkey
    exact hascii ▸ hknown key hkey
  · exact ⟨_, hlookup List.mem_cons_self, rfl, hlib.getInteger_unsigned 1⟩
  · exact sectionReads_of_spells (hlookup (by simp [documentMembers])) rfl (by decide +kernel)
      (spells_detectorMembers hlib hwiden hspellable) hwritten.detector
  · exact sectionReads_of_spells (hlookup (by simp [documentMembers])) rfl (by decide +kernel)
      (spells_recognitionMembers hlib hwiden hspellable hvalid.recognition) hwritten.recognition
  · exact sectionReads_of_spells (hlookup (by simp [documentMembers])) rfl (by decide +kernel)
      (spells_cropMembers hlib hwiden hspellable hvalid.crop) hwritten.crop
  · exact sectionReads_of_spells (hlookup (by simp [documentMembers])) rfl (by decide +kernel)
      (spells_decisionMembers hlib hwiden config.decision) hwritten.decision
  · exact sectionReads_of_spells (hlookup (by simp [documentMembers])) rfl (by decide +kernel)
      (spells_performanceMembers hlib hvalid.performance) hwritten.performance

/-- Exact numbers, and a parser that reads nothing. -/
def exactLibrary : Library ℚ ℚ where
  parse _ := .error "parse error"
  narrow := id
  getInteger
    | .integer value => value
    | .unsigned value => value.toInt64
    | _ => 0
  getFloat
    | .boolean value => .ok (if value then 1 else 0)
    | .integer value => .ok value.toInt
    | .unsigned value => .ok value.toNat
    | .floating value => .ok value
    | _ => .error "type must be number"
  getBool
    | .boolean value => .ok value
    | _ => .error "type must be boolean"

theorem documented_exactLibrary : exactLibrary.Documented where
  getInteger_unsigned _ := rfl
  getFloat_floating _ := rfl
  getBool_boolean _ := rfl

/-- A configuration with three values that are not defaults. -/
def sampleConfig : EngineConfig ℚ where
  decision := { acceptedConfidenceThreshold := 7 / 8, minimumCropQuality := 1 / 4 }
  performance := { workerCount := 4 }

/-- Those three are written. -/
def sampleWritten (scope : String) (key : Text) : Bool :=
  [("decision", ascii "accepted_confidence_threshold"), ("decision", ascii "minimum_crop_quality"),
    ("performance", ascii "worker_count")].contains (scope, key)

theorem parseConfig_document_sampleConfig :
    parseConfig exactLibrary .reject (document id sampleWritten sampleConfig) =
      .ok sampleConfig := by
  have hvalid : sampleConfig.Valid := (validateEngineConfig_eq_ok (u := ())).mp (by decide +kernel)
  refine parseConfig_document documented_exactLibrary (fun _ => rfl) hvalid
    (by constructor <;> decide) ⟨fun _ _ _ => rfl, fun _ _ _ => rfl, fun _ _ _ => rfl, ?_, ?_⟩
    .reject
  · simp only [decisionFields, List.forall_mem_cons]
    exact ⟨fun h => absurd h (by decide +kernel), fun _ => rfl, fun _ => rfl,
      fun h => absurd h (by decide +kernel), fun _ => rfl, fun _ => rfl, fun _ => rfl,
      fun _ => rfl, fun _ h => absurd h List.not_mem_nil⟩
  · simp only [performanceFields, List.forall_mem_cons]
    exact ⟨fun h => absurd h (by decide +kernel), fun _ => rfl, fun _ => rfl, fun _ => rfl,
      fun _ => rfl, fun _ => rfl, fun _ h => absurd h List.not_mem_nil⟩

end JsonConfig

end FacLpr
