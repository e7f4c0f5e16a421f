import FacLpr.Application.TurkishPlateGrammar
import FacLpr.Domain.Recognition
import FacLpr.Foundations.StableSort
import FacLpr.Foundations.WeightedPaths
import FacLpr.Infrastructure.Lprnet.CtcDecoder
import Mathlib.Data.Prod.Lex

/-!
# Infrastructure/Lprnet/ConstrainedCtcBeamSearch — beam search under the plate grammar

A beam holds weighted states: a text and the class emitted last.  One timestep lists the
`merge_state` calls of the source in order (`expandBeam`), merges them by state, sorts and cuts.
The log-probabilities of the source are their weights, as in `CtcDecoder`.
-/

namespace FacLpr

structure ConstrainedCtcBeamSearchConfig (F : Type) [Scalar F] where
  ctc : GreedyCtcDecoderConfig
  beamWidth : ℕ := 16
  resultLimit : ℕ := 5
  classesPerStep : ℕ := 6
  confusionWeight : F := Scalar.ofRat (15 / 100)
  confusionPairs : List (Byte × Byte) :=
    [(byte '0', byte 'O'), (byte '1', byte 'I'), (byte '8', byte 'B'), (byte '5', byte 'S'),
      (byte '6', byte 'G')]

/-- The checks of the constructor, those of the greedy decoder first. -/
def ConstrainedCtcBeamSearchConfig.check {F : Type} [Scalar F]
    (config : ConstrainedCtcBeamSearchConfig F) : Except EngineError Unit := do
  config.ctc.check
  require (config.beamWidth ≠ 0 ∧ config.beamWidth ≤ 512 ∧ config.resultLimit ≠ 0 ∧
      config.resultLimit ≤ config.beamWidth ∧ config.classesPerStep ≠ 0 ∧
      config.classesPerStep ≤ config.ctc.maximumClasses ∧
      Scalar.isFinite config.confusionWeight ∧ ¬ config.confusionWeight ≤ 0 ∧
      ¬ 1 < config.confusionWeight)
    (configurationError "constrained CTC beam search configuration is invalid")
  require (config.confusionPairs.all fun pair => pair.1 ≠ 0 ∧ pair.2 ≠ 0 ∧ pair.1 ≠ pair.2)
    (configurationError "CTC confusion pairs must contain two distinct characters")

/-- A beam search its constructor accepted. -/
structure ConstrainedCtcBeamSearch (F : Type) [Scalar F] where
  config : ConstrainedCtcBeamSearchConfig F
  grammar : TurkishPlateGrammar
  accepted : config.check = .ok ()

structure ConstrainedCtcBeamSearchResult (F : Type) where
  candidates : List (PlateCandidate F)
  greedy : CtcDecodeResult F
  topMargin : F
  fallbackUsed : Bool

/-- The key states are merged by: the text so far and the class emitted last. -/
abbrev BeamKey := Text ×ₗ ℕ

/-- A state of the beam with its weight. -/
abbrev BeamState (W : Type) := BeamKey × W

namespace BeamState

variable {W : Type}

def text (st : BeamState W) : Text := (ofLex st.1).1

def lastClass (st : BeamState W) : ℕ := (ofLex st.1).2

def weight (st : BeamState W) : W := st.2

end BeamState

namespace ConstrainedCtcBeamSearch

variable {F W : Type} [Scalar F] [Scalar W]

section

variable [CtcArithmetic F W]

/-- The loop that takes the largest logit of a row. -/
def rowMaximum : List F → Option F → Except EngineError (Option F)
  | [], maximum => .ok maximum
  | value :: rest, maximum =>
      if !Scalar.isFinite value then .error (inferenceError "beam logits contain NaN or Inf")
      else
        rowMaximum rest <|
          match maximum with
          | none => some value
          | some m => some (Scalar.max m value)

variable (W) in
/-- `log_softmax`: the softmax weights of a row. -/
def logSoftmax (row : List F) : Except EngineError (List W) := do
  match ← rowMaximum row none with
  | none => .error (inferenceError "beam timestep has no classes")
  | some maximum =>
      let denominator : W :=
        row.foldl (fun sum value => sum + CtcArithmetic.expDiff value maximum) 0
      require (Scalar.isFinite denominator ∧ ¬ denominator ≤ 0)
        (inferenceError "beam softmax denominator is invalid")
      return row.map fun value => CtcArithmetic.expDiff value maximum / denominator

end

/-- The order of `select_classes`: heavier first, then by index. -/
def classLess (weights : List W) (left right : ℕ) : Bool :=
  if weights.getD left 0 != weights.getD right 0 then weights.getD right 0 < weights.getD left 0
  else left < right

def selectClasses (weights : List W) (count blankIndex : ℕ) : List ℕ :=
  let indices := (stableSort (classLess weights) (List.range weights.length)).take count
  if blankIndex ∈ indices then indices else indices ++ [blankIndex]

/-- The order of the beam: heavier first, then by text and last class. -/
def stateLess (left right : BeamState W) : Bool :=
  if left.weight != right.weight then right.weight < left.weight
  else if left.text ≠ right.text then left.text < right.text
  else left.lastClass < right.lastClass

def charsetContains (config : GreedyCtcDecoderConfig) (character : Byte) : Bool :=
  character ∈ config.charset

/-- The other character of a confusion pair, `'\0'` when the pair does not match. -/
def alternativeOf (emitted : Byte) (pair : Byte × Byte) : Byte :=
  if emitted = pair.1 then pair.2 else if emitted = pair.2 then pair.1 else 0

variable (b : ConstrainedCtcBeamSearch F)

/-- The greedy decoder built from the same configuration. -/
def greedyDecoder : GreedyCtcDecoder :=
  ⟨b.config.ctc, (except_bind_eq_ok.mp b.accepted).elim fun _ h => h.1⟩

/-- `append_if_valid`, with the weight of the penalty. -/
def appendIfValid (text : Text) (classIndex : ℕ) (nextWeight : W) (character : Byte) (penalty : W) :
    List (BeamState W) :=
  if b.grammar.isValidPrefix (text ++ [character]) then
    [(toLex (text ++ [character], classIndex), nextWeight * penalty)]
  else []

section

variable [CtcArithmetic F W]

/-- The `merge_state` calls for one state and one class. -/
def expandClass (weights : List W) (st : BeamState W) (classIndex : ℕ) :
    Except EngineError (List (BeamState W)) :=
  let nextWeight := st.weight * weights.getD classIndex 0
  if classIndex = b.config.ctc.blankIndex then
    .ok [(toLex (st.text, b.config.ctc.blankIndex), nextWeight)]
  else if classIndex = st.lastClass then
    .ok [(toLex (st.text, classIndex), nextWeight)]
  else do
    let emitted ← b.config.ctc.classToCharacter
      (internalError "blank class cannot map to a character")
      (inferenceError "beam class index is outside charset") classIndex
    return b.appendIfValid st.text classIndex nextWeight emitted 1 ++
      b.config.confusionPairs.flatMap fun pair =>
        let alternative := alternativeOf emitted pair
        if alternative ≠ 0 ∧ charsetContains b.config.ctc alternative then
          b.appendIfValid st.text classIndex nextWeight alternative
            (CtcArithmetic.ofFloat b.config.confusionWeight)
        else []

/-- The `merge_state` calls of one timestep, in order. -/
def expandBeam (weights : List W) (selected : List ℕ) (beam : List (BeamState W)) :
    Except EngineError (List (BeamState W)) := do
  let calls ← beam.mapM fun st => do
    let calls ← selected.mapM fun classIndex => b.expandClass weights st classIndex
    return calls.flatten
  return calls.flatten

variable (W) in
/-- The weights and the selected classes of a timestep. -/
def stepClasses (row : List F) (classes : ℕ) : Except EngineError (List W × List ℕ) := do
  let weights ← logSoftmax W row
  return (weights,
    selectClasses weights (min b.config.classesPerStep classes) b.config.ctc.blankIndex)

/-- The merged hypotheses of one timestep. -/
def mergeRow (row : List F) (classes : ℕ) (beam : List (BeamState W)) :
    Except EngineError (OrdMap BeamKey W) := do
  let (weights, selected) ← b.stepClasses W row classes
  let calls ← b.expandBeam weights selected beam
  return calls.foldl Weighted.accumulate OrdMap.empty

end

/-- The merged hypotheses sorted and cut to the beam width. -/
def cutBeam (merged : OrdMap BeamKey W) : List (BeamState W) :=
  (stableSort stateLess merged.entries).take b.config.beamWidth

section

variable [CtcArithmetic F W]

/-- The loop over the timesteps. -/
def beamLoop (classes : ℕ) :
    List (List F) → List (BeamState W) → Except EngineError (List (BeamState W))
  | [], beam => .ok beam
  | row :: rows, beam => do
      let merged ← b.mergeRow row classes beam
      if (b.cutBeam merged).isEmpty then return b.cutBeam merged
      else beamLoop classes rows (b.cutBeam merged)

end

/-- The beam the loop starts from. -/
def initialBeam : List (BeamState W) := [(toLex ([], b.config.ctc.blankIndex), 1)]

/-- The weight of every valid text of the final beam. -/
def finalScores (beam : List (BeamState W)) : OrdMap Text W :=
  ((beam.filter fun st => b.grammar.isValidNormalized st.text).map fun st =>
    (st.text, st.weight)).foldl Weighted.accumulate OrdMap.empty

/-- `confidence_from_log_probability`; a log-probability that is not finite has weight zero or
infinity. -/
def confidenceFromWeight [CtcArithmetic F W] (weight : W) (timesteps : ℕ) : F :=
  if !(Scalar.isFinite weight && decide (0 < weight)) ∨ timesteps = 0 then 0
  else CtcArithmetic.toFloat (Scalar.clamp (CtcArithmetic.root F weight timesteps) 0 1)

/-- The order of the results: by confidence, then by text. -/
def candidateLess (left right : PlateCandidate F) : Bool :=
  if left.confidence != right.confidence then right.confidence < left.confidence
  else left.text < right.text

section

variable [CtcArithmetic F W]

/-- The candidate of a scored text. -/
def scoredCandidate (timesteps : ℕ) (score : Text × W) : PlateCandidate F where
  text := score.1
  confidence := confidenceFromWeight score.2 timesteps
  calibratedConfidence := confidenceFromWeight score.2 timesteps
  formatValid := true

/-- The scored texts as candidates, sorted and cut to the result limit. -/
def scoredCandidates (scores : OrdMap Text W) (timesteps : ℕ) : List (PlateCandidate F) :=
  (stableSort candidateLess (scores.entries.map (scoredCandidate timesteps))).take
    b.config.resultLimit

end

/-- The candidate made of the greedy text when the beam leaves none. -/
def fallbackCandidate (greedy : CtcDecodeResult F) : PlateCandidate F :=
  let normalized := b.grammar.normalize greedy.text
  { text := if normalized.isEmpty then greedy.text else normalized
    confidence := greedy.confidence
    calibratedConfidence := greedy.confidence
    formatValid := !normalized.isEmpty && b.grammar.isValidNormalized normalized }

def topMargin : List (PlateCandidate F) → F
  | [] => 0
  | [only] => only.confidence
  | first :: second :: _ => Scalar.clamp (first.confidence - second.confidence) 0 1

section

variable [CtcArithmetic F W]

variable (W) in
/-- The beam after the last timestep. -/
def finalBeam (logits : List F) (timesteps classes : ℕ) : Except EngineError (List (BeamState W)) :=
  b.beamLoop classes ((List.range timesteps).map (logitsRow logits classes)) b.initialBeam

variable (W) in
/-- `ConstrainedCtcBeamSearch::decode`. -/
def decode (logits : List F) (timesteps classes : ℕ) :
    Except EngineError (ConstrainedCtcBeamSearchResult F) := do
  let greedy ← b.greedyDecoder.decode W logits timesteps classes
  require (classes = b.greedyDecoder.classCount)
    (inferenceError "beam class count does not match configured CTC contract")
  require (timesteps ≠ 0 ∧ timesteps ≤ b.config.ctc.maximumTimesteps ∧ classes ≠ 0 ∧
      classes ≤ b.config.ctc.maximumClasses ∧ timesteps ≤ sizeMax / classes ∧
      logits.length = timesteps * classes)
    (inferenceError "beam logits shape is invalid")
  let beam ← b.finalBeam W logits timesteps classes
  let scored := b.scoredCandidates (b.finalScores beam) timesteps
  let fallbackUsed := scored.isEmpty && !greedy.text.isEmpty
  let candidates := if fallbackUsed then [b.fallbackCandidate greedy] else scored
  return { candidates, greedy, topMargin := topMargin candidates, fallbackUsed }

variable {b}

/-- What a successful decode returns, from the greedy result and the final beam. -/
theorem decode_eq_ok {logits : List F} {timesteps classes : ℕ}
    {result : ConstrainedCtcBeamSearchResult F}
    (h : b.decode W logits timesteps classes = .ok result) :
    ∃ greedy beam, b.greedyDecoder.decode W logits timesteps classes = .ok greedy ∧
      classes = b.config.ctc.charset.length + 1 ∧ logits.length = timesteps * classes ∧
      b.finalBeam W logits timesteps classes = .ok beam ∧
      result.greedy = greedy ∧ result.topMargin = topMargin result.candidates ∧
      ((result.fallbackUsed = false ∧
          result.candidates = b.scoredCandidates (b.finalScores beam) timesteps) ∨
        (result.fallbackUsed = true ∧ greedy.text ≠ [] ∧
          result.candidates = [b.fallbackCandidate greedy])) := by
  obtain ⟨greedy, hgreedy, h⟩ := except_bind_eq_ok.mp h
  obtain ⟨_, hclasses, h⟩ := except_bind_eq_ok.mp h
  obtain ⟨_, hshape, h⟩ := except_bind_eq_ok.mp h
  obtain ⟨beam, hbeam, h⟩ := except_bind_eq_ok.mp h
  simp only [require_eq_ok, decide_eq_true_eq] at hclasses hshape
  obtain rfl := Except.ok.inj h
  refine ⟨greedy, beam, hgreedy, hclasses, hshape.2.2.2.2.2, hbeam, rfl, rfl, ?_⟩
  cases hused : (b.scoredCandidates (F := F) (b.finalScores beam) timesteps).isEmpty &&
      !greedy.text.isEmpty with
  | false => exact Or.inl ⟨rfl, rfl⟩
  | true =>
    rw [Bool.and_eq_true, Bool.not_eq_true', List.isEmpty_eq_false_iff] at hused
    exact Or.inr ⟨rfl, hused.2, rfl⟩

/-- A scored candidate carries the score of its text. -/
theorem mem_scoredCandidates {scores : OrdMap Text W} {timesteps : ℕ} {c : PlateCandidate F}
    (h : c ∈ b.scoredCandidates scores timesteps) :
    ∃ score, scores.find? c.text = some score ∧ c = scoredCandidate timesteps (c.text, score) := by
  obtain ⟨⟨text, score⟩, hmem, rfl⟩ :=
    List.mem_map.mp (mem_stableSort.mp (List.mem_of_mem_take h))
  exact ⟨score, OrdMap.mem_entries.mp hmem, rfl⟩

omit [CtcArithmetic F W] in
/-- **Only plates of the grammar are scored.** -/
theorem isValidNormalized_of_find? {beam : List (BeamState W)} {text : Text} {score : W}
    (h : (b.finalScores beam).find? text = some score) :
    b.grammar.isValidNormalized text = true := by
  have hfind := OrdMap.find?_foldl_upsert Prod.fst
    (fun (p : Text × W) stored => match stored with | none => p.2 | some v => v + p.2) text
    ((beam.filter fun st => b.grammar.isValidNormalized st.text).map fun st =>
      (st.text, st.weight)) OrdMap.empty
  rw [OrdMap.find?_empty] at hfind
  have hne : ((beam.filter fun st => b.grammar.isValidNormalized st.text).map fun st =>
      (st.text, st.weight)).filter (fun p => p.1 == text) ≠ [] := by
    intro hnil
    rw [hnil] at hfind
    exact absurd (h.symm.trans hfind) (by simp)
  obtain ⟨p, hp⟩ := List.exists_mem_of_ne_nil _ hne
  obtain ⟨hmem, htext⟩ := List.mem_filter.mp hp
  obtain ⟨st, hst, rfl⟩ := List.mem_map.mp hmem
  rw [← eq_of_beq htext]
  exact (List.mem_filter.mp hst).2

end

end ConstrainedCtcBeamSearch

end FacLpr
