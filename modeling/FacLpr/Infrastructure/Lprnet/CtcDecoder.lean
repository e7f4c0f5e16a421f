import FacLpr.Application.Error
import FacLpr.Foundations.Binary
import FacLpr.Foundations.Scalar
import FacLpr.Foundations.Text

/-!
# Infrastructure/Lprnet/CtcDecoder — greedy CTC decoding

`F` is the type of the logits (`float`).  A log-probability of the source is represented by the
weight it is the logarithm of, in `W`: adding logarithms is `*`, `log_add` is `+`, and the order is
the same.  `CtcArithmetic` lists the conversions the decoders use between the two.
-/

namespace FacLpr

/-- The operations of the decoders that go between logits and weights. -/
class CtcArithmetic (F W : Type) [Scalar F] [Scalar W] where
  /-- `std::exp(value - maximum)`, in double precision. -/
  expDiff : F → F → W
  /-- The value of a float as a weight. -/
  ofFloat : F → W
  toFloat : W → F
  /-- `std::exp(log_probability / timesteps)`. -/
  root : W → ℕ → W

structure GreedyCtcDecoderConfig where
  charset : List Byte
  blankIndex : ℕ := 0
  maximumTimesteps : ℕ := 256
  maximumClasses : ℕ := 256
  deriving DecidableEq

/-- The checks of the greedy decoder's constructor. -/
def GreedyCtcDecoderConfig.check (config : GreedyCtcDecoderConfig) : Except EngineError Unit := do
  require (config.charset ≠ []) (configurationError "CTC charset cannot be empty")
  require (config.charset.length < sizeMax) (configurationError "CTC charset size is invalid")
  require (config.blankIndex < config.charset.length + 1)
    (configurationError "CTC blank index is outside class range")
  require (config.maximumTimesteps ≠ 0 ∧ config.maximumClasses ≠ 0 ∧
      config.charset.length + 1 ≤ config.maximumClasses)
    (configurationError "CTC decoder limits are invalid")
  require (0 ∉ config.charset ∧ config.charset.Nodup)
    (configurationError "CTC charset contains null or duplicate characters")

/-- A greedy decoder its constructor accepted. -/
structure GreedyCtcDecoder where
  config : GreedyCtcDecoderConfig
  accepted : config.check = .ok ()

structure CtcDecodeResult (F : Type) where
  text : Text
  confidence : F
  characterConfidences : List F

/-- The row of one timestep, `logits.subspan(timestep * classes, classes)`. -/
def logitsRow {F : Type} (logits : List F) (classes timestep : ℕ) : List F :=
  (logits.drop (timestep * classes)).take classes

/-- A row of a tensor of the right size has a logit for each class. -/
theorem length_logitsRow {F : Type} {logits : List F} {timesteps classes n : ℕ}
    (hlen : logits.length = timesteps * classes) (hn : n < timesteps) :
    (logitsRow logits classes n).length = classes := by
  have hle : (n + 1) * classes ≤ timesteps * classes := Nat.mul_le_mul_right _ hn
  rw [Nat.add_mul] at hle
  rw [logitsRow, List.length_take, List.length_drop]
  omega

/-- The rows of a tensor of the right size. -/
theorem length_of_mem_rows {F : Type} {logits : List F} {timesteps classes : ℕ}
    (hlen : logits.length = timesteps * classes) :
    ∀ row ∈ (List.range timesteps).map (logitsRow logits classes), row.length = classes := by
  rintro _ hmem
  obtain ⟨n, hn, rfl⟩ := List.mem_map.mp hmem
  exact length_logitsRow hlen (List.mem_range.mp hn)

namespace GreedyCtcDecoderConfig

variable (config : GreedyCtcDecoderConfig)

/-- The charset position of a class other than the blank. -/
def charsetIndex (classIndex : ℕ) : ℕ :=
  if classIndex < config.blankIndex then classIndex else classIndex - 1

/-- `class_to_character` of the greedy decoder and of the beam search, which differ in the texts of
their errors. -/
def classToCharacter (blankError rangeError : EngineError) (classIndex : ℕ) :
    Except EngineError Byte :=
  if classIndex = config.blankIndex then .error blankError
  else
    match config.charset[config.charsetIndex classIndex]? with
    | none => .error rangeError
    | some character => .ok character

variable {config}

/-- An accepted blank index is one of the classes. -/
theorem blankIndex_lt (h : config.check = .ok ()) :
    config.blankIndex < config.charset.length + 1 := by
  obtain ⟨_, -, h⟩ := except_bind_eq_ok.mp h
  obtain ⟨_, -, h⟩ := except_bind_eq_ok.mp h
  obtain ⟨_, hblank, -⟩ := except_bind_eq_ok.mp h
  simpa using hblank

/-- An accepted charset has no null character. -/
theorem zero_notMem_charset (h : config.check = .ok ()) : 0 ∉ config.charset := by
  obtain ⟨_, -, h⟩ := except_bind_eq_ok.mp h
  obtain ⟨_, -, h⟩ := except_bind_eq_ok.mp h
  obtain ⟨_, -, h⟩ := except_bind_eq_ok.mp h
  obtain ⟨_, -, h⟩ := except_bind_eq_ok.mp h
  have := require_eq_ok.mp h
  simp only [decide_eq_true_eq] at this
  exact this.1

/-- The charset position of a class other than the blank is in the charset. -/
theorem charsetIndex_lt (h : config.check = .ok ()) {classIndex : ℕ}
    (hblank : classIndex ≠ config.blankIndex) (hlt : classIndex < config.charset.length + 1) :
    config.charsetIndex classIndex < config.charset.length := by
  have := blankIndex_lt h
  unfold charsetIndex
  split <;> omega

/-- Every charset character has a class. -/
theorem exists_class_of_mem_charset {character : Byte} (h : character ∈ config.charset) :
    ∃ classIndex < config.charset.length + 1, classIndex ≠ config.blankIndex ∧
      config.charset[config.charsetIndex classIndex]? = some character := by
  obtain ⟨i, hi, rfl⟩ := List.getElem_of_mem h
  by_cases hlt : i < config.blankIndex
  · refine ⟨i, by omega, hlt.ne, ?_⟩
    rw [charsetIndex, if_pos hlt, List.getElem?_eq_getElem hi]
  · refine ⟨i + 1, by omega, by omega, ?_⟩
    rw [charsetIndex, if_neg (by omega), Nat.add_sub_cancel, List.getElem?_eq_getElem hi]

/-- Every class but the blank has a character. -/
theorem classToCharacter_eq_ok (h : config.check = .ok ()) (blankError rangeError : EngineError)
    {classIndex : ℕ} (hblank : classIndex ≠ config.blankIndex)
    (hlt : classIndex < config.charset.length + 1) :
    config.classToCharacter blankError rangeError classIndex =
      .ok ((config.charset[config.charsetIndex classIndex]?).getD 0) := by
  rw [classToCharacter, if_neg hblank, List.getElem?_eq_getElem (charsetIndex_lt h hblank hlt)]
  rfl

end GreedyCtcDecoderConfig

namespace GreedyCtcDecoder

variable {F : Type} [Scalar F]

def classCount (d : GreedyCtcDecoder) : ℕ := d.config.charset.length + 1

def checkedElementCount (timesteps classes : ℕ) : Except EngineError ℕ := do
  require (timesteps ≠ 0 ∧ classes ≠ 0) (inferenceError "CTC logits dimensions must be non-zero")
  require (timesteps ≤ sizeMax / classes) (inferenceError "CTC logits element count overflows")
  return timesteps * classes

/-- The argmax loop: the index reached, and the largest logit with its index so far (`none` is the
initial minus infinity at index `0`). -/
def argmaxLoop : List F → ℕ → Option (F × ℕ) → Except EngineError (Option (F × ℕ))
  | [], _, best => .ok best
  | value :: rest, index, best =>
      if !Scalar.isFinite value then .error (inferenceError "CTC logits contain NaN or Inf")
      else
        argmaxLoop rest (index + 1) <|
          match best with
          | none => some (value, index)
          | some (maximum, best) =>
              if maximum < value then some (value, index) else some (maximum, best)

/-- The class of the largest logit of a row, and its softmax probability. -/
def argmaxProbability (W : Type) [Scalar W] [CtcArithmetic F W] (row : List F) :
    Except EngineError (ℕ × F) := do
  match ← argmaxLoop row 0 none with
  | none => .error (inferenceError "CTC timestep has no classes")
  | some (maximum, best) =>
      let denominator : W :=
        row.foldl (fun sum value => sum + CtcArithmetic.expDiff value maximum) 0
      require (Scalar.isFinite denominator ∧ ¬ denominator ≤ 0)
        (inferenceError "CTC softmax denominator is invalid")
      return (best, CtcArithmetic.toFloat (Scalar.clamp (1 / denominator : W) 0 1))

/-- The state of the decoding loop. -/
structure LoopState (F W : Type) where
  text : Text
  characterConfidences : List F
  previousClass : Option ℕ
  confidenceSum : W

/-- One timestep of the decoding loop. -/
def decodeRow (W : Type) [Scalar W] [CtcArithmetic F W] (d : GreedyCtcDecoder) (st : LoopState F W)
    (row : List F) : Except EngineError (LoopState F W) := do
  let (bestClass, probability) ← argmaxProbability W row
  if bestClass ≠ d.config.blankIndex ∧ some bestClass ≠ st.previousClass then
    let character ← d.config.classToCharacter
      (internalError "blank CTC class cannot map to a character")
      (inferenceError "CTC class index is outside configured charset") bestClass
    return {
      text := st.text ++ [character]
      characterConfidences := st.characterConfidences ++ [probability]
      previousClass := some bestClass
      confidenceSum := st.confidenceSum + CtcArithmetic.ofFloat probability }
  else
    return { st with previousClass := some bestClass }

/-- `GreedyCtcDecoder::decode`. -/
def decode (W : Type) [Scalar W] [CtcArithmetic F W] (d : GreedyCtcDecoder) (logits : List F)
    (timesteps classes : ℕ) : Except EngineError (CtcDecodeResult F) := do
  require (timesteps ≤ d.config.maximumTimesteps ∧ classes ≤ d.config.maximumClasses)
    (inferenceError "CTC logits exceed configured decoder limits")
  require (classes = d.classCount)
    (inferenceError "CTC class count does not match charset and blank configuration")
  let expected ← checkedElementCount timesteps classes
  require (logits.length = expected)
    (inferenceError "CTC logits buffer size does not match shape")
  let st ← (List.range timesteps).foldlM
    (fun st timestep => decodeRow W d st (logitsRow logits classes timestep))
    { text := [], characterConfidences := [], previousClass := none, confidenceSum := 0 }
  let confidence : F :=
    if st.characterConfidences.isEmpty then 0
    else
      let mean : W := st.confidenceSum / Scalar.ofRat st.characterConfidences.length
      Scalar.clamp01 (CtcArithmetic.toFloat mean)
  return { text := st.text, confidence, characterConfidences := st.characterConfidences }

end GreedyCtcDecoder

end FacLpr
