import FacLpr.Application.Config
import FacLpr.Application.Providers
import FacLpr.Foundations.OrdMap
import FacLpr.Foundations.StableSort

/-!
# Application/CandidateFusion — fused support over crops and recognizers

Each evidence item gives a text at most one vote, its best score there, and the votes of a text
combine as a noisy-or.
-/

namespace FacLpr

structure CandidateFusionConfig (F : Type) [Scalar F] where
  maxCandidates : ℕ := 5
  defaultSourceWeight : F := 1
  sourceWeights : OrdMap Text F := OrdMap.empty
  recognitionWeight : F := Scalar.ofRat (65 / 100)
  cropQualityWeight : F := Scalar.ofRat (15 / 100)
  candidateMarginWeight : F := Scalar.ofRat (10 / 100)
  layoutWeight : F := Scalar.ofRat (10 / 100)
  minimumCandidateConfidence : F := Scalar.ofRat (1 / 100)

namespace CandidateFusionConfig

variable {F : Type} [Scalar F]

/-- The sum of the scoring weights. -/
def totalWeight (config : CandidateFusionConfig F) : F :=
  config.recognitionWeight + config.cropQualityWeight + config.candidateMarginWeight +
    config.layoutWeight

/-- The checks of the constructor. -/
def check (config : CandidateFusionConfig F) : Except EngineError Unit := do
  require (config.maxCandidates ≠ 0 ∧ config.maxCandidates ≤ 64)
    (configurationError "candidate fusion max_candidates must be in [1,64]")
  requireProbability config.defaultSourceWeight "default_source_weight"
  requireProbability config.recognitionWeight "recognition_weight"
  requireProbability config.cropQualityWeight "crop_quality_weight"
  requireProbability config.candidateMarginWeight "candidate_margin_weight"
  requireProbability config.layoutWeight "layout_weight"
  requireProbability config.minimumCandidateConfidence "minimum_candidate_confidence"
  require (Scalar.isFinite config.totalWeight && !decide (config.totalWeight ≤ 0))
    (configurationError "candidate fusion scoring weights must have a positive sum")
  config.sourceWeights.entries.forM fun (source, weight) => do
    require (!source.isEmpty) (configurationError "candidate fusion source name cannot be empty")
    requireProbability weight "source_weight"

end CandidateFusionConfig

/-- The order of candidates by a score, the greater first, then by text. -/
def PlateCandidate.before {F : Type} [Scalar F] (score : PlateCandidate F → F)
    (left right : PlateCandidate F) : Bool :=
  if score left != score right then score right < score left else left.text < right.text

namespace CandidateFusion

variable {F D : Type} [Scalar F]

/-- A fusion its constructor accepted. -/
structure Config (F : Type) [Scalar F] where
  config : CandidateFusionConfig F
  accepted : config.check = .ok ()

/-- The fusion of the default configuration, in exact arithmetic. -/
def Config.default : Config ℚ := ⟨{}, by decide +kernel⟩

def effectiveConfidence (candidate : PlateCandidate F) : F :=
  if Scalar.isFinite candidate.calibratedConfidence ∧ 0 < candidate.calibratedConfidence then
    Scalar.clamp01 candidate.calibratedConfidence
  else if Scalar.isFinite candidate.confidence then Scalar.clamp01 candidate.confidence else 0

/-- The lead of a candidate over the best one with another text. -/
def candidateMargin (evidence : RecognitionEvidence F D) (candidate : PlateCandidate F)
    (candidateIndex : ℕ) : F :=
  let highestCompeting := evidence.candidates.zipIdx.foldl (fun highest (other, index) =>
    if index = candidateIndex ∨ other.text = candidate.text then highest
    else Scalar.max highest (effectiveConfidence other)) 0
  Scalar.clamp01 (effectiveConfidence candidate - highestCompeting)

def sourceWeight (config : CandidateFusionConfig F) (source : Text) : F :=
  (config.sourceWeights.find? source).getD config.defaultSourceWeight

/-- The layout quality of an evidence item: zero without a reliable layout. -/
def layoutQuality (layoutEvidence : List (LayoutEvidence F)) (evidenceIndex : ℕ) : F :=
  match layoutEvidence[evidenceIndex]? with
  | some layout =>
      if layout.reliable ∧ Scalar.isFinite layout.confidence then Scalar.clamp01 layout.confidence
      else 0
  | none => 0

/-- An item the fusion does not skip. -/
def isUsable (config : CandidateFusionConfig F) (evidence : RecognitionEvidence F D) : Bool :=
  !(decide (sourceWeight config evidence.source ≤ 0) || !Scalar.isFinite evidence.cropQuality)

/-- A candidate the fusion does not skip. -/
def isCounted (config : CandidateFusionConfig F) (candidate : PlateCandidate F) : Bool :=
  !(candidate.text.isEmpty ||
    decide (effectiveConfidence candidate < config.minimumCandidateConfidence))

/-- The score of a candidate in its evidence item. -/
def score (config : CandidateFusionConfig F) (evidence : RecognitionEvidence F D) (layout : F)
    (candidate : PlateCandidate F) (candidateIndex : ℕ) : F :=
  sourceWeight config evidence.source * Scalar.clamp01
    ((effectiveConfidence candidate * config.recognitionWeight +
      Scalar.clamp01 evidence.cropQuality * config.cropQualityWeight +
      candidateMargin evidence candidate candidateIndex * config.candidateMarginWeight +
      layout * config.layoutWeight) / config.totalWeight)

structure Aggregate (F : Type) where
  support : F
  formatValid : Bool
  deriving DecidableEq

/-- One more candidate of a text in an item: the best score, and whether one is format-valid. -/
def addLocal (value : F) (formatValid : Bool) (stored : Option (Aggregate F)) : Aggregate F :=
  let stored := stored.getD ⟨0, false⟩
  ⟨if stored.support < value then value else stored.support, stored.formatValid || formatValid⟩

/-- The votes of an evidence item, by text. -/
def perCropSupport (config : CandidateFusionConfig F) (evidence : RecognitionEvidence F D)
    (layout : F) : OrdMap Text (Aggregate F) :=
  evidence.candidates.zipIdx.foldl (fun votes (candidate, index) =>
    if isCounted config candidate then
      votes.upsert candidate.text
        (addLocal (score config evidence layout candidate index) candidate.formatValid)
    else votes) OrdMap.empty

/-- One more vote for a text. -/
def addVote (vote : Aggregate F) (stored : Option (Aggregate F)) : Aggregate F :=
  let target := stored.getD ⟨0, false⟩
  ⟨Scalar.clamp01 (1 - (1 - target.support) * (1 - vote.support)),
    target.formatValid || vote.formatValid⟩

/-- The votes of all evidence items, by text. -/
def aggregate (config : CandidateFusionConfig F) (evidence : List (RecognitionEvidence F D))
    (layoutEvidence : List (LayoutEvidence F)) : OrdMap Text (Aggregate F) :=
  evidence.zipIdx.foldl (fun aggregate (item, index) =>
    if isUsable config item then
      (perCropSupport config item (layoutQuality layoutEvidence index)).entries.foldl
        (fun aggregate (text, vote) => aggregate.upsert text (addVote vote)) aggregate
    else aggregate) OrdMap.empty

/-- The candidate of an aggregated text. -/
def fusedCandidate (entry : Text × Aggregate F) : PlateCandidate F where
  text := entry.1
  confidence := entry.2.support
  calibratedConfidence := entry.2.support
  formatValid := entry.2.formatValid

/-- The fused candidates before the cut, the best first. -/
def ranked (config : CandidateFusionConfig F) (evidence : List (RecognitionEvidence F D))
    (layoutEvidence : List (LayoutEvidence F)) : List (PlateCandidate F) :=
  stableSort (PlateCandidate.before PlateCandidate.confidence)
    ((aggregate config evidence layoutEvidence).entries.map fusedCandidate)

/-- `WeightedMultiCropCandidateFusion::fuse`. -/
def fuse (c : Config F) (evidence : List (RecognitionEvidence F D))
    (layoutEvidence : List (LayoutEvidence F)) : List (PlateCandidate F) :=
  (ranked c.config evidence layoutEvidence).take c.config.maxCandidates

/-! ## The configuration -/

/-- What the constructor checked of the weights. -/
structure Weighted (config : CandidateFusionConfig F) : Prop where
  defaultSource : Scalar.isProbability config.defaultSourceWeight = true
  recognition : Scalar.isProbability config.recognitionWeight = true
  cropQuality : Scalar.isProbability config.cropQualityWeight = true
  candidateMargin : Scalar.isProbability config.candidateMarginWeight = true
  layout : Scalar.isProbability config.layoutWeight = true
  total : Scalar.isFinite config.totalWeight = true ∧ ¬ config.totalWeight ≤ 0
  sources : ∀ entry ∈ config.sourceWeights.entries, Scalar.isProbability entry.2 = true

theorem Config.weighted (c : Config F) : Weighted c.config := by
  have haccepted := c.accepted
  simp only [CandidateFusionConfig.check, requireProbability, except_bind_eq_ok, require_eq_ok,
    List.forM_eq_forM, except_forM_eq_ok] at haccepted
  obtain ⟨-, -, -, hdefault, -, hrecognition, -, hcrop, -, hmargin, -, hlayout, -, -, -, htotal,
    hsources⟩ := haccepted
  rw [Bool.and_eq_true, Bool.not_eq_true', decide_eq_false_iff_not] at htotal
  refine ⟨hdefault, hrecognition, hcrop, hmargin, hlayout, htotal, fun entry hentry => ?_⟩
  obtain ⟨-, -, hweight⟩ := hsources entry hentry
  exact hweight

/-- A source weight of an accepted configuration is a probability. -/
theorem isProbability_sourceWeight (c : Config F) (source : Text) :
    Scalar.isProbability (sourceWeight c.config source) = true := by
  unfold sourceWeight
  cases hfind : c.config.sourceWeights.find? source with
  | none => exact c.weighted.defaultSource
  | some weight => exact c.weighted.sources _ (OrdMap.mem_entries.mpr hfind)

/-! ## One text at a time -/

/-- The item has a counted candidate with this text. -/
def mentions (config : CandidateFusionConfig F) (text : Text) (item : RecognitionEvidence F D) :
    Bool :=
  item.candidates.any fun candidate => isCounted config candidate && candidate.text == text

/-- The item has a counted format-valid candidate with this text. -/
def mentionsValid (config : CandidateFusionConfig F) (text : Text)
    (item : RecognitionEvidence F D) : Bool :=
  item.candidates.any fun candidate =>
    (isCounted config candidate && candidate.text == text) && candidate.formatValid

/-- The best score of a text in an item. -/
def bestScore (config : CandidateFusionConfig F) (text : Text) (item : RecognitionEvidence F D)
    (layout : F) : F :=
  ((item.candidates.zipIdx.filter fun (candidate, _) =>
      isCounted config candidate && candidate.text == text).map fun (candidate, index) =>
        score config item layout candidate index).foldl Scalar.max 0

/-- The items that vote for a text, with their places. -/
def voters (config : CandidateFusionConfig F) (text : Text)
    (evidence : List (RecognitionEvidence F D)) : List (RecognitionEvidence F D × ℕ) :=
  evidence.zipIdx.filter fun (item, _) => isUsable config item && mentions config text item

/-- The vote of an item for a text. -/
def voteFor (config : CandidateFusionConfig F) (layoutEvidence : List (LayoutEvidence F))
    (text : Text) (voter : RecognitionEvidence F D × ℕ) : Aggregate F :=
  ⟨bestScore config text voter.1 (layoutQuality layoutEvidence voter.2),
    mentionsValid config text voter.1⟩

theorem any_zipIdx {α : Type} (l : List α) (p : α → Bool) :
    (l.zipIdx.any fun x => p x.1) = l.any p := by
  have h : (l.zipIdx.map Prod.fst).any p = l.any p := by rw [List.zipIdx_map_fst]
  rw [← h, List.any_map]
  rfl

theorem not_isEmpty_filter {α : Type} (l : List α) (p : α → Bool) :
    (!(l.filter p).isEmpty) = l.any p := by
  induction l with
  | nil => rfl
  | cons a l ih =>
    rw [List.filter_cons, List.any_cons]
    split
    · simp [*]
    · simp [*]

/-- The candidates of one text in an item add up to its best score. -/
theorem foldl_addLocal {α : Type} (value : α → F) (formatValid : α → Bool) (l : List α)
    (stored : Aggregate F) :
    l.foldl (fun stored a => some (addLocal (value a) (formatValid a) stored)) (some stored) =
      some ⟨(l.map value).foldl Scalar.max stored.support,
        stored.formatValid || l.any formatValid⟩ := by
  induction l generalizing stored with
  | nil => simp
  | cons a l ih =>
    rw [List.foldl_cons, ih, List.map_cons, List.foldl_cons, List.any_cons, ← Bool.or_assoc]
    rfl

/-- The same from nothing stored. -/
theorem foldl_addLocal_none {α : Type} (value : α → F) (formatValid : α → Bool) (l : List α) :
    l.foldl (fun stored a => some (addLocal (value a) (formatValid a) stored)) none =
      if l.isEmpty then none
      else some ⟨(l.map value).foldl Scalar.max 0, l.any formatValid⟩ := by
  cases l with
  | nil => rfl
  | cons a l =>
    rw [List.foldl_cons, foldl_addLocal, List.map_cons, List.foldl_cons, List.any_cons]
    rfl

/-- **The vote of an item** for a text it mentions is its best score there. -/
theorem find?_perCropSupport (config : CandidateFusionConfig F) (item : RecognitionEvidence F D)
    (layout : F) (text : Text) :
    (perCropSupport config item layout).find? text =
      if mentions config text item then
        some ⟨bestScore config text item layout, mentionsValid config text item⟩
      else none := by
  have hloop : (perCropSupport config item layout).find? text =
      (item.candidates.zipIdx.filter fun x =>
        isCounted config x.1 && x.1.text == text).foldl (fun stored x =>
          some (addLocal (score config item layout x.1 x.2) x.1.formatValid stored)) none :=
    OrdMap.find?_foldl_upsert_if (fun x : PlateCandidate F × ℕ => isCounted config x.1)
      (fun x => x.1.text)
      (fun x => addLocal (score config item layout x.1 x.2) x.1.formatValid) text
      item.candidates.zipIdx OrdMap.empty
  have hmentions : mentions config text item = !(item.candidates.zipIdx.filter fun x =>
      isCounted config x.1 && x.1.text == text).isEmpty := by
    rw [not_isEmpty_filter, mentions, ← any_zipIdx]
  have hvalid : mentionsValid config text item = ((item.candidates.zipIdx.filter fun x =>
      isCounted config x.1 && x.1.text == text).any fun x => x.1.formatValid) := by
    rw [List.any_filter, mentionsValid, ← any_zipIdx]
  rw [hloop, foldl_addLocal_none, hmentions, hvalid, bestScore]
  cases (item.candidates.zipIdx.filter fun x =>
    isCounted config x.1 && x.1.text == text).isEmpty <;> rfl

/-- **The aggregate of a text** is made of the votes for it, in order. -/
theorem find?_aggregate (config : CandidateFusionConfig F)
    (evidence : List (RecognitionEvidence F D)) (layoutEvidence : List (LayoutEvidence F))
    (text : Text) :
    (aggregate config evidence layoutEvidence).find? text =
      (voters config text evidence).foldl (fun stored voter =>
        some (addVote (voteFor config layoutEvidence text voter) stored)) none := by
  have hloop : ∀ (l : List (RecognitionEvidence F D × ℕ)) (m : OrdMap Text (Aggregate F)),
      (l.foldl (fun aggregate (item, index) =>
        if isUsable config item then
          (perCropSupport config item (layoutQuality layoutEvidence index)).entries.foldl
            (fun aggregate (text, vote) => aggregate.upsert text (addVote vote)) aggregate
        else aggregate) m).find? text =
      (l.filter fun (item, _) => isUsable config item && mentions config text item).foldl
        (fun stored voter => some (addVote (voteFor config layoutEvidence text voter) stored))
        (m.find? text) := by
    intro l
    induction l with
    | nil => exact fun _ => rfl
    | cons voter l ih =>
      intro m
      obtain ⟨item, index⟩ := voter
      rw [List.foldl_cons, ih, List.filter_cons]
      have hentries : ((perCropSupport config item (layoutQuality
          layoutEvidence index)).entries.foldl
          (fun aggregate (text, vote) => aggregate.upsert text (addVote vote)) m).find? text = _ :=
        OrdMap.find?_foldl_entries addVote _ text m
      rw [find?_perCropSupport] at hentries
      cases husable : isUsable config item with
      | false => simp [husable]
      | true =>
        simp only [husable, if_true, Bool.true_and]
        rw [hentries]
        cases hmentions : mentions config text item <;> simp [voteFor]
  exact hloop _ _

/-- A text is aggregated when an item votes for it, and is format-valid when one of the votes is. -/
theorem foldl_addVote {α : Type} (vote : α → Aggregate F) (l : List α)
    (stored : Option (Aggregate F)) :
    (l.foldl (fun stored a => some (addVote (vote a) stored)) stored).isSome =
        (stored.isSome || !l.isEmpty) ∧
      ((l.foldl (fun stored a => some (addVote (vote a) stored)) stored).getD
          ⟨0, false⟩).formatValid =
        ((stored.getD ⟨0, false⟩).formatValid || l.any fun a => (vote a).formatValid) := by
  induction l generalizing stored with
  | nil => simp
  | cons a l ih =>
    obtain ⟨hsome, hvalid⟩ := ih (some (addVote (vote a) stored))
    rw [List.foldl_cons, hsome, hvalid, List.any_cons, ← Bool.or_assoc]
    simp [addVote]

/-- The fused candidates come from the aggregate. -/
theorem mem_ranked {config : CandidateFusionConfig F} {evidence : List (RecognitionEvidence F D)}
    {layoutEvidence : List (LayoutEvidence F)} {candidate : PlateCandidate F} :
    candidate ∈ ranked config evidence layoutEvidence ↔
      ∃ value, (aggregate config evidence layoutEvidence).find? candidate.text = some value ∧
        fusedCandidate (candidate.text, value) = candidate := by
  rw [ranked, mem_stableSort, List.mem_map]
  constructor
  · rintro ⟨⟨text, value⟩, hmem, rfl⟩
    exact ⟨value, OrdMap.mem_entries.mp hmem, rfl⟩
  · rintro ⟨value, hfind, heq⟩
    exact ⟨(candidate.text, value), OrdMap.mem_entries.mpr hfind, heq⟩

/-- **The format flag survives the fusion with its text**: a fused candidate flagged format-valid
has the text of a candidate so flagged in the evidence. -/
theorem exists_of_mem_fuse {c : Config F} {evidence : List (RecognitionEvidence F D)}
    {layoutEvidence : List (LayoutEvidence F)} {fused : PlateCandidate F}
    (h : fused ∈ fuse c evidence layoutEvidence) (hvalid : fused.formatValid = true) :
    ∃ item ∈ evidence, ∃ candidate ∈ item.candidates,
      candidate.text = fused.text ∧ candidate.formatValid = true := by
  obtain ⟨value, hfind, heq⟩ := mem_ranked.mp (List.mem_of_mem_take h)
  have hflag : value.formatValid = true := by
    rw [← heq] at hvalid
    exact hvalid
  have hvotes := (foldl_addVote (voteFor c.config layoutEvidence fused.text)
    (voters c.config fused.text evidence) none).2
  rw [← find?_aggregate, hfind] at hvotes
  rw [Option.getD_some, hflag] at hvotes
  obtain ⟨⟨item, index⟩, hvoter, hmentions⟩ := List.any_eq_true.mp hvotes.symm
  obtain ⟨candidate, hcandidate, hflags⟩ := List.any_eq_true.mp hmentions
  simp only [Bool.and_eq_true, beq_iff_eq] at hflags
  exact ⟨item, List.fst_mem_of_mem_zipIdx (List.mem_of_mem_filter hvoter), candidate, hcandidate,
    hflags.1.2, hflags.2⟩

end CandidateFusion

end FacLpr
