import FacLpr.Foundations.OrdMap
import FacLpr.Foundations.Scalar
import FacLpr.Foundations.UnicodeText
import FacLpr.Infrastructure.Config.JsonConfigAdapter
import Mathlib.Data.List.Lex
import Mathlib.Data.Prod.Lex

/-!
# Tools/CalibrationFit — the script that fits a calibration

The samples of a CSV file are grouped by their provider and crop type.  A group with enough samples
of both labels is fitted by Newton's method and written as a segment of the document that the engine
loads; the others are written as rejected.

The floats of Python and the reading of a CSV file are parameters.  A call that raises returns the
exception.
-/

namespace FacLpr

namespace CalibrationFit

open JsonConfig (Document Members)

inductive PythonError where
  | valueError (message : String)
  | osError (message : String)
  | csvError (message : String)
  /-- Any other, which the script does not catch. -/
  | uncaught (name : String)

/-- What Python computes with a `float`. -/
class PythonFloat (D : Type) extends Scalar D where
  neg : D → D
  abs : D → D
  /-- `x ** 2`. -/
  square : D → Except PythonError D
  /-- `math.exp`. -/
  exp : D → Except PythonError D
  /-- `math.log`. -/
  log : D → Except PythonError D
  /-- `sum` of floats. -/
  sum : List D → D
  /-- `float` of a text. -/
  ofText : Unicode → Except PythonError D
  /-- `int` of a text. -/
  intOfText : Unicode → Except PythonError ℤ

section Script

variable {D : Type} [PythonFloat D]

/-- The quotient of two floats. -/
def divide (a b : D) : Except PythonError D :=
  if b == 0 then .error (.uncaught "ZeroDivisionError") else .ok (a / b)

structure Sample (D : Type) where
  raw : D
  label : ℤ

/-! ## The fit -/

/-- `sigmoid`. -/
def sigmoid (value : D) : Except PythonError D :=
  if 0 ≤ value then do
    let z ← PythonFloat.exp (PythonFloat.neg value)
    divide 1 (1 + z)
  else do
    let z ← PythonFloat.exp value
    divide z (1 + z)

/-- `logit`. -/
def logit (probability epsilon : D) : Except PythonError D := do
  let p := Scalar.min (Scalar.max probability epsilon) (1 - epsilon)
  let odds ← divide p (1 - p)
  PythonFloat.log odds

/-- The gradient and the Hessian that an iteration sums. -/
structure Sums (D : Type) where
  gS : D
  gI : D
  hSS : D
  hSI : D
  hII : D

def l2 : D := Scalar.ofRat (1 / 10 ^ 6)

/-- What the sums of an iteration start from. -/
def regularization (slope intercept : D) : Sums D :=
  { gS := l2 * slope, gI := l2 * intercept, hSS := l2, hSI := 0, hII := l2 }

/-- The body of the loop over the samples. -/
def addSample (epsilon slope intercept : D) (sums : Sums D) (sample : Sample D) :
    Except PythonError (Sums D) := do
  let x ← logit sample.raw epsilon
  let p ← sigmoid (slope * x + intercept)
  let error := p - Scalar.ofRat sample.label
  let weight := Scalar.max (p * (1 - p)) (Scalar.ofRat (1 / 10 ^ 12))
  return {
    gS := sums.gS + error * x
    gI := sums.gI + error
    hSS := sums.hSS + weight * x * x
    hSI := sums.hSI + weight * x
    hII := sums.hII + weight }

/-- The step of an iteration, in the slope and in the intercept. -/
def newtonStep (samples : List (Sample D)) (epsilon slope intercept : D) :
    Except PythonError (D × D) := do
  let sums ← samples.foldlM (addSample epsilon slope intercept) (regularization slope intercept)
  let determinant := sums.hSS * sums.hII - sums.hSI * sums.hSI
  if determinant ≤ Scalar.ofRat (1 / 10 ^ 18) ∨ Scalar.isFinite determinant = false then
    .error (.valueError "singular calibration Hessian")
  else do
    let stepS ← divide (sums.hII * sums.gS - sums.hSI * sums.gI) determinant
    let stepI ← divide (PythonFloat.neg sums.hSI * sums.gS + sums.hSS * sums.gI) determinant
    return (stepS, stepI)

/-- The loop of `fit_logistic`, with the iterations that are left. -/
def iterate (samples : List (Sample D)) (epsilon : D) : ℕ → D → D → Except PythonError (D × D)
  | 0, slope, intercept => .ok (slope, intercept)
  | left + 1, slope, intercept => do
      let step ← newtonStep samples epsilon slope intercept
      let slope := slope - step.1
      let intercept := intercept - step.2
      if Scalar.isFinite slope = false ∨ Scalar.isFinite intercept = false then
        .error (.valueError "non-finite calibration parameters")
      else if Scalar.max (PythonFloat.abs step.1) (PythonFloat.abs step.2) <
          Scalar.ofRat (1 / 10 ^ 8) then
        .ok (slope, intercept)
      else iterate samples epsilon left slope intercept

/-- `fit_logistic`. -/
def fitLogistic (samples : List (Sample D)) (epsilon : D) (maxIterations : ℕ := 100) :
    Except PythonError (D × D) := do
  let fitted ← iterate samples epsilon maxIterations 1 0
  if fitted.1 ≤ 0 then
    .error (.valueError "fitted calibration slope is non-positive; segment is not usable")
  else return fitted

structure Metrics (D : Type) where
  brier : D
  ece : D

/-- The body of the loop over the bins. -/
def addBin (predicted : List (D × ℤ)) (bins : ℕ) (ece : D) (index : ℕ) : Except PythonError D :=
  let low : D := Scalar.ofRat (index / bins)
  let high : D := Scalar.ofRat ((index + 1) / bins)
  let members := predicted.filter fun p =>
    (decide (low ≤ p.1) && decide (p.1 < high)) || (index == bins - 1 && p.1 == 1)
  if members.isEmpty then .ok ece
  else do
    let confidence ← divide (PythonFloat.sum (members.map Prod.fst)) (Scalar.ofRat members.length)
    let accuracy : D := Scalar.ofRat ((members.map Prod.snd).sum / members.length)
    return ece + Scalar.ofRat (members.length / predicted.length) *
      PythonFloat.abs (confidence - accuracy)

/-- `metrics`. -/
def metrics (samples : List (Sample D)) (slope intercept epsilon : D) (bins : ℕ := 10) :
    Except PythonError (Metrics D) := do
  let predictions ← samples.mapM fun sample => do
    let x ← logit sample.raw epsilon
    sigmoid (slope * x + intercept)
  let predicted := predictions.zip (samples.map Sample.label)
  let squares ← predicted.mapM fun p => PythonFloat.square (p.1 - Scalar.ofRat p.2)
  let brier ← divide (PythonFloat.sum squares) (Scalar.ofRat samples.length)
  let ece ← (List.range bins).foldlM (addBin predicted bins) 0
  return { brier, ece }

/-! ## The samples -/

/-- A row of the reader: a cell that the row is too short for is `None`. -/
structure CsvRow where
  provider : Option Unicode
  cropType : Option Unicode
  rawConfidence : Option Unicode
  label : Option Unicode

/-- What the reader makes of a file: its rows, and what it raises behind them. -/
structure CsvFile where
  fieldnames : List Unicode
  rows : List CsvRow
  failure : Option PythonError

/-- A provider and a crop type, in the order of tuples. -/
abbrev GroupKey := Lex (Unicode × Unicode)

abbrev Groups (D : Type) := OrdMap GroupKey (List (Sample D))

/-- The columns of a file, in the order of their names. -/
def requiredColumns : List String := ["crop_type", "label", "provider", "raw_confidence"]

/-- `row[…].strip()`. -/
def stripped : Option Unicode → Except PythonError Unicode
  | none => .error (.uncaught "AttributeError")
  | some text => .ok text.strip

/-- The argument of `float` and of `int`. -/
def given : Option Unicode → Except PythonError Unicode
  | none => .error (.uncaught "TypeError")
  | some text => .ok text

def lineError (line : ℕ) (what : String) : PythonError :=
  .valueError ("line " ++ toString line ++ ": " ++ what)

/-- What a row gives: its group and its sample. -/
def readRow (row : CsvRow) (line : ℕ) : Except PythonError (GroupKey × Sample D) := do
  let provider ← stripped row.provider
  let cropType ← stripped row.cropType
  if provider = [] then .error (lineError line "provider is empty")
  else do
    let raw : D ← given row.rawConfidence >>= PythonFloat.ofText
    let label ← given row.label >>= PythonFloat.intOfText D
    if Scalar.isFinite raw = false ∨ raw < 0 ∨ 1 < raw then
      .error (lineError line "raw_confidence must be in [0,1]")
    else if label ∉ [0, 1] then .error (lineError line "label must be 0 or 1")
    else return (toLex (provider, cropType), { raw, label })

/-- `groups[…].append(…)`. -/
def append (groups : Groups D) (read : GroupKey × Sample D) : Groups D :=
  groups.upsert read.1 fun samples => samples.getD [] ++ [read.2]

/-- `load_samples`. -/
def loadSamples (path : Except PythonError CsvFile) : Except PythonError (Groups D) := do
  let file ← path
  let missing := requiredColumns.filter fun column => column.toList ∉ file.fieldnames
  if missing ≠ [] then
    .error (.valueError ("CSV missing columns: " ++ String.intercalate ", " missing))
  else do
    let groups ← (file.rows.zipIdx 2).foldlM (fun groups numbered => do
      let read ← readRow numbered.1 numbered.2
      return append groups read) OrdMap.empty
    match file.failure with
    | some error => .error error
    | none =>
        if groups.entries = [] then .error (.valueError "validation CSV contains no samples")
        else return groups

/-! ## The document -/

structure Arguments (D : Type) where
  modelVersion : Unicode
  datasetVersion : Unicode
  minimumSamples : ℤ
  probabilityEpsilon : D

structure FittedSegment (D : Type) where
  provider : Unicode
  cropType : Unicode
  slope : D
  intercept : D
  sampleCount : ℕ
  metrics : Metrics D

structure RejectedSegment where
  provider : Unicode
  cropType : Unicode
  sampleCount : ℕ
  reason : String

structure Payload (D : Type) where
  modelVersion : Unicode
  datasetVersion : Unicode
  minimumSamples : ℤ
  probabilityEpsilon : D
  segments : List (FittedSegment D)
  rejectedSegments : List RejectedSegment

/-- The body of the loop over the groups. -/
def fitGroup (arguments : Arguments D) (group : GroupKey × List (Sample D)) :
    Except PythonError (FittedSegment D ⊕ RejectedSegment) :=
  let provider := (ofLex group.1).1
  let cropType := (ofLex group.1).2
  let samples := group.2
  let sampleCount := samples.length
  let positives := (samples.map Sample.label).sum
  if sampleCount < arguments.minimumSamples then
    return .inr { provider, cropType, sampleCount, reason := "minimum_samples" }
  else if positives = 0 ∨ positives = sampleCount then
    return .inr { provider, cropType, sampleCount, reason := "single_class" }
  else do
    let fitted ← fitLogistic samples arguments.probabilityEpsilon
    let metrics ← metrics samples fitted.1 fitted.2 arguments.probabilityEpsilon
    return .inl {
      provider, cropType, slope := fitted.1, intercept := fitted.2, sampleCount, metrics }

/-- The `try` of `main`, up to the writing of the file. -/
def buildPayload (arguments : Arguments D) (path : Except PythonError CsvFile) :
    Except PythonError (Payload D) := do
  let groups ← loadSamples path
  let results ← groups.entries.mapM (fitGroup arguments)
  let segments := results.filterMap Sum.getLeft?
  if segments = [] then
    .error (.valueError "no calibration segment met minimum sample/class requirements")
  else
    return {
      modelVersion := arguments.modelVersion
      datasetVersion := arguments.datasetVersion
      minimumSamples := arguments.minimumSamples
      probabilityEpsilon := arguments.probabilityEpsilon
      segments
      rejectedSegments := results.filterMap Sum.getRight? }

/-- How the script ends. -/
inductive Outcome (D : Type) where
  | usage (message : String)
  | failed (message : String)
  | raised (error : PythonError)
  | wrote (payload : Payload D)

/-- `main`. -/
def main (arguments : Arguments D) (path : Except PythonError CsvFile) : Outcome D :=
  if arguments.minimumSamples ≤ 0 then .usage "--minimum-samples must be positive"
  else if ¬ (0 < arguments.probabilityEpsilon ∧
      arguments.probabilityEpsilon < Scalar.ofRat (1 / 2)) then
    .usage "--probability-epsilon must be in (0, 0.5)"
  else if arguments.modelVersion.strip = [] ∨ arguments.datasetVersion.strip = [] then
    .usage "model/dataset versions cannot be empty"
  else
    match buildPayload arguments path with
    | .ok payload => .wrote payload
    | .error (.valueError message) => .failed ("calibration fit failed: " ++ message)
    | .error (.osError message) => .failed ("calibration fit failed: " ++ message)
    | .error (.csvError message) => .failed ("calibration fit failed: " ++ message)
    | .error (.uncaught name) => .raised (.uncaught name)

end Script

/-! ## The document, as it is read -/

section Document

variable {D : Type} [Scalar D]

/-- A number of Python, as the JSON library reads it: kept whole while it fits in 64 bits. -/
def integerDocument (n : ℤ) : Document D :=
  if n < 0 then
    if -2 ^ 63 ≤ n then .integer (Int64.ofInt n) else .floating (Scalar.ofRat n)
  else if n < 2 ^ 64 then .unsigned (UInt64.ofNat n.toNat)
  else .floating (Scalar.ofRat n)

def stringDocument (text : Unicode) : Document D := .string text.utf8

def Metrics.document (metrics : Metrics D) : Document D :=
  .object [(ascii "brier", .floating metrics.brier), (ascii "ece", .floating metrics.ece)]

def FittedSegment.members (segment : FittedSegment D) : Members D :=
  [
    (ascii "cropType", stringDocument segment.cropType),
    (ascii "intercept", .floating segment.intercept),
    (ascii "metrics", segment.metrics.document),
    (ascii "provider", stringDocument segment.provider),
    (ascii "sampleCount", integerDocument segment.sampleCount),
    (ascii "slope", .floating segment.slope)]

def RejectedSegment.document (segment : RejectedSegment) : Document D :=
  .object [
    (ascii "cropType", stringDocument segment.cropType),
    (ascii "provider", stringDocument segment.provider),
    (ascii "reason", .string (ascii segment.reason)),
    (ascii "sampleCount", integerDocument segment.sampleCount)]

/-- The members of the payload, in the order of a `std::map`. -/
def Payload.members (payload : Payload D) : Members D :=
  [
    (ascii "datasetVersion", stringDocument payload.datasetVersion),
    (ascii "minimumSamples", integerDocument payload.minimumSamples),
    (ascii "modelVersion", stringDocument payload.modelVersion),
    (ascii "probabilityEpsilon", .floating payload.probabilityEpsilon),
    (ascii "rejectedSegments", .array (payload.rejectedSegments.map RejectedSegment.document)),
    (ascii "schemaVersion", integerDocument 1),
    (ascii "segments", .array (payload.segments.map fun segment => .object segment.members))]

/-- What `json.dumps` writes of the payload, as the JSON library reads it. -/
def Payload.document (payload : Payload D) : Document D := .object payload.members

end Document

end CalibrationFit

end FacLpr
