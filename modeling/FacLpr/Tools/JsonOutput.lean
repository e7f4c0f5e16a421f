import FacLpr.Application.PipelineResult
import FacLpr.Foundations.BinaryScalar
import FacLpr.Foundations.PrintedNumbers

/-!
# Tools/JsonOutput — the JSON output of the command line tool

`escape_json` escapes the quotation mark, the reverse solidus and three control characters, and
leaves the others.  So a string that holds one of those is printed as no string literal, and the
document around it does not parse (`jsonOutput_iff`).
-/

namespace FacLpr

open Json

namespace LprCli

/-! ## `escape_json` -/

/-- One round of the loop. -/
def escapeChar (ch : Byte) : Text :=
  if ch = reverseSolidus then [reverseSolidus, reverseSolidus]
  else if ch = quotationMark then [reverseSolidus, quotationMark]
  else if ch = 0x0A then [reverseSolidus, byte 'n']
  else if ch = 0x0D then [reverseSolidus, byte 'r']
  else if ch = 0x09 then [reverseSolidus, byte 't']
  else [ch]

/-- `escape_json`. -/
def escapeJson (value : Text) : Text := value.flatMap escapeChar

/-- Bytes that `escape_json` leaves fit for a string. -/
def IsEscapable (b : Byte) : Prop := 0x20 ≤ b ∨ b = 0x0A ∨ b = 0x0D ∨ b = 0x09

/-- An escaped byte is read back as the byte, when it may be escaped, -/
theorem readUnits_escapeChar {ch : Byte} (h : IsEscapable ch) (rest : Text) :
    readUnits (escapeChar ch ++ rest) =
      (readUnits rest).map fun (units, t) => (.plain ch :: units, t) := by
  have hletters : quotationMark ≠ 0x75 ∧ reverseSolidus ≠ 0x75 ∧ byte 'n' ≠ 0x75 ∧
      byte 'r' ≠ 0x75 ∧ byte 't' ≠ 0x75 := by decide
  obtain ⟨hquote, hescape, hn, hr, ht⟩ := hletters
  unfold escapeChar
  split_ifs with hsolidus hmark hline hreturn htab
  · rw [hsolidus]
    exact readUnits_escape hescape rfl rest
  · rw [hmark]
    exact readUnits_escape hquote rfl rest
  · rw [hline]
    exact readUnits_escape hn rfl rest
  · rw [hreturn]
    exact readUnits_escape hr rfl rest
  · rw [htab]
    exact readUnits_escape ht rfl rest
  · have hcontrol : 0x20 ≤ ch := by
      rcases h with h | h | h | h
      · exact h
      · exact absurd h hline
      · exact absurd h hreturn
      · exact absurd h htab
    exact readUnits_plain ⟨hcontrol, hmark, hsolidus⟩ rest

/-- and as nothing otherwise. -/
theorem readUnits_escapeChar_eq_none {ch : Byte} (h : ¬ IsEscapable ch) (rest : Text) :
    readUnits (escapeChar ch ++ rest) = none := by
  obtain ⟨hcontrol, hline, hreturn, htab⟩ := by simpa [IsEscapable, not_or] using h
  have hsolidus : ch ≠ reverseSolidus := ne_of_lt (hcontrol.trans (by decide))
  have hmark : ch ≠ quotationMark := ne_of_lt (hcontrol.trans (by decide))
  unfold escapeChar
  rw [if_neg hsolidus, if_neg hmark, if_neg hline, if_neg hreturn, if_neg htab]
  exact readUnits_control hcontrol rest

/-- **An escaped text is read as itself**, if its bytes are escapable. -/
theorem readsBody_escapeJson (value : Text) :
    ReadsBody (escapeJson value) (∀ b ∈ value, IsEscapable b) value := by
  induction value with
  | nil => exact ⟨fun _ rest _ => readUnits_quotationMark rest, fun h => absurd (by simp) h⟩
  | cons ch value ih =>
    have htext (rest : Text) : escapeJson (ch :: value) ++ [quotationMark] ++ rest =
        escapeChar ch ++ (escapeJson value ++ [quotationMark] ++ rest) := by
      simp only [escapeJson, List.flatMap_cons, List.append_assoc]
    by_cases hch : IsEscapable ch
    · have hread : Reads readUnits (escapeJson (ch :: value) ++ [quotationMark])
          (∀ b ∈ value, IsEscapable b) ((ch :: value).map .plain) :=
        Reads.map (StringUnit.plain ch :: ·) ih fun rest => by
          rw [htext]
          exact readUnits_escapeChar hch _
      refine ⟨fun hok => hread.accepts fun b hb => hok b (List.mem_cons_of_mem _ hb),
        fun hnot => hread.rejects fun hok => hnot (List.forall_mem_cons.mpr ⟨hch, hok⟩)⟩
    · refine ⟨fun hok => absurd (hok ch List.mem_cons_self) hch, fun _ rest _ => ?_⟩
      rw [htext]
      exact readUnits_escapeChar_eq_none hch _

/-- A text as the tool prints it. -/
def escaped (value : Text) : Printed :=
  ⟨_, _, _, (readsBody_escapeJson value).readsValue⟩

@[simp] theorem text_escaped (value : Text) :
    (escaped value).text = quoted (escapeJson value) := rfl

@[simp] theorem ok_escaped (value : Text) :
    (escaped value).ok ↔ ∀ b ∈ value, IsEscapable b := Iff.rfl

/-! ## Names -/

/-- `status_name`. -/
def statusName : RecognitionStatus → Text
  | .accepted => ascii "ACCEPTED"
  | .review => ascii "REVIEW"
  | .rejected => ascii "REJECTED"

/-- `reason_name`. -/
def reasonName : RecognitionDecisionReason → Text
  | .acceptedConsensus => ascii "accepted_consensus"
  | .fatalProviderFailure => ascii "fatal_provider_failure"
  | .degradedProviderSet => ascii "degraded_provider_set"
  | .detectorConfidenceBelowMinimum => ascii "detector_confidence_below_minimum"
  | .geometryBelowMinimum => ascii "geometry_below_minimum"
  | .cropQualityBelowMinimum => ascii "crop_quality_below_minimum"
  | .noValidCandidate => ascii "no_valid_candidate"
  | .candidateConfidenceBelowReview => ascii "candidate_confidence_below_review"
  | .candidateConfidenceBelowAccept => ascii "candidate_confidence_below_accept"
  | .conflictingStrongCandidates => ascii "conflicting_strong_candidates"

theorem isPlain_statusName (status : RecognitionStatus) : ∀ b ∈ statusName status, IsPlain b := by
  cases status <;> decide +kernel

theorem isPlain_reasonName (reason : RecognitionDecisionReason) :
    ∀ b ∈ reasonName reason, IsPlain b := by
  cases reason <;> decide +kernel

/-- `static_cast<int>`. -/
def errorCodeInt : EngineErrorCode → ℤ
  | .configuration => 0
  | .modelLoad => 1
  | .inference => 2
  | .invalidImage => 3
  | .provider => 4
  | .cancelled => 5
  | .timeout => 6
  | .resourceExhausted => 7
  | .internal => 8

/-! ## `emit_json` -/

/-- The name of a member, with its colon. -/
def key (name : String) : Text := quoted (ascii name) ++ [colon]

/-- `std::cout << piece << piece << …`. -/
def stream (pieces : List Text) : Text := pieces.flatten

def boolName (value : Bool) : Text := ascii (if value then "true" else "false")

section

variable {F D : Type} [FloatEncoding F] [FloatEncoding D]

/-- `operator<<` of a `float` or a `double`. -/
def streamNumber {B : Type} [FloatEncoding B] (v : B) : Text :=
  floatText (FloatEncoding.format B) (FloatEncoding.datum v)

def emitFailure (failure : ProviderFailure) : Text :=
  stream [[openBrace], key "provider", [quotationMark], escapeJson failure.provider,
    [quotationMark], [comma], key "code", integerText (errorCodeInt failure.code), [closeBrace]]

def emitStageTiming (timing : PipelineStageTiming D) : Text :=
  stream [[openBrace], key "stage", [quotationMark], escapeJson timing.stage, [quotationMark],
    [comma], key "detectionIndex", integerText timing.detectionIndex,
    [comma], key "cropIndex", integerText timing.cropIndex,
    [comma], key "latencyMs", streamNumber timing.latencyMs, [closeBrace]]

def emitBbox (bbox : BoundingBox F) : Text :=
  stream [[openBrace], key "x1", streamNumber bbox.x, [comma], key "y1", streamNumber bbox.y,
    [comma], key "x2", streamNumber (bbox.x + bbox.width),
    [comma], key "y2", streamNumber (bbox.y + bbox.height),
    [comma], key "width", streamNumber bbox.width,
    [comma], key "height", streamNumber bbox.height, [closeBrace]]

def emitKeypoint (quad : PlateQuadrilateral F) (point : Fin 4) : Text :=
  stream [[openBrace], key "x", streamNumber (quad.points point).x,
    [comma], key "y", streamNumber (quad.points point).y,
    [comma], key "confidence", streamNumber (quad.confidences point), [closeBrace]]

def emitRecognition (recognition : PlateRecognitionResult F D) : Text :=
  let bbox := match recognition.bbox with
    | some bbox => emitBbox bbox
    | none => ascii "null"
  let keypoints := match recognition.quadrilateral with
    | some quad =>
        stream [[openBracket], separated ((List.finRange 4).map (emitKeypoint quad)),
          [closeBracket]]
    | none => ascii "null"
  let reasons := recognition.decisionReasons.map fun reason =>
    stream [[quotationMark], reasonName reason, [quotationMark]]
  stream [[openBrace], key "status", [quotationMark], statusName recognition.status,
    [quotationMark], [comma], key "plate", [quotationMark], escapeJson recognition.plate,
    [quotationMark], [comma], key "confidence", streamNumber recognition.confidence,
    [comma], key "detectorConfidence", streamNumber recognition.detectorConfidence,
    [comma], key "geometryScore", streamNumber recognition.geometryScore,
    [comma], key "cropQuality", streamNumber recognition.cropQuality,
    [comma], key "degraded", boolName recognition.degraded, [comma], key "bbox", bbox,
    [comma], key "keypoints", keypoints,
    [comma], key "reasons", [openBracket], separated reasons, [closeBracket], [closeBrace]]

/-- `emit_json`. -/
def emitJson (result : LprPipelineResult F D) (imageWidth imageHeight : ℤ) : Text :=
  stream [[openBrace], key "imageWidth", integerText imageWidth,
    [comma], key "imageHeight", integerText imageHeight,
    [comma], key "totalLatencyMs", streamNumber result.totalLatencyMs,
    [comma], key "degraded", boolName result.degraded,
    [comma], key "providerFailureCount", integerText result.providerFailureCount,
    [comma], key "failures", [openBracket], separated (result.failures.map emitFailure),
    [closeBracket], [comma], key "stageTimings", [openBracket],
    separated (result.stageTimings.map emitStageTiming),
    [closeBracket], [comma], key "recognitions", [openBracket],
    separated (result.recognitions.map emitRecognition), [closeBracket], [closeBrace], [0x0A]]

/-! ## What the document says -/

/-- The name of a member. -/
def plain (name : String) (h : ∀ b ∈ ascii name, IsPlain b := by decide +kernel) : PlainText :=
  ⟨ascii name, h⟩

/-- A number as the tool prints it. -/
def numeral {B : Type} [FloatEncoding B] (v : B) : Printed :=
  Printed.float (FloatEncoding.format B) (FloatEncoding.datum v)

@[simp] theorem text_numeral {B : Type} [FloatEncoding B] (v : B) :
    (numeral v).text = streamNumber v := rfl

@[simp] theorem ok_numeral {B : Type} [FloatEncoding B] (v : B) :
    (numeral v).ok ↔ Scalar.isFinite v = true := Iff.rfl

open Printed

/-- What a failure is printed as. -/
def failureDocument (failure : ProviderFailure) : Printed :=
  .object [(plain "provider", escaped failure.provider),
    (plain "code", integer (errorCodeInt failure.code))]

def stageTimingDocument (timing : PipelineStageTiming D) : Printed :=
  .object [(plain "stage", escaped timing.stage),
    (plain "detectionIndex", integer timing.detectionIndex),
    (plain "cropIndex", integer timing.cropIndex), (plain "latencyMs", numeral timing.latencyMs)]

def bboxDocument (bbox : BoundingBox F) : Printed :=
  .object [(plain "x1", numeral bbox.x), (plain "y1", numeral bbox.y),
    (plain "x2", numeral (bbox.x + bbox.width)), (plain "y2", numeral (bbox.y + bbox.height)),
    (plain "width", numeral bbox.width), (plain "height", numeral bbox.height)]

def keypointDocument (quad : PlateQuadrilateral F) (point : Fin 4) : Printed :=
  .object [(plain "x", numeral (quad.points point).x), (plain "y", numeral (quad.points point).y),
    (plain "confidence", numeral (quad.confidences point))]

def keypointsDocument (quad : PlateQuadrilateral F) : Printed :=
  .array ((List.finRange 4).map (keypointDocument quad))

/-- A value that may be missing. -/
def optional {α : Type} (document : α → Printed) : Option α → Printed
  | some value => document value
  | none => .null

/-- What a recognition is printed as. -/
def recognitionDocument (recognition : PlateRecognitionResult F D) : Printed :=
  .object [(plain "status", word ⟨_, isPlain_statusName recognition.status⟩),
    (plain "plate", escaped recognition.plate),
    (plain "confidence", numeral recognition.confidence),
    (plain "detectorConfidence", numeral recognition.detectorConfidence),
    (plain "geometryScore", numeral recognition.geometryScore),
    (plain "cropQuality", numeral recognition.cropQuality),
    (plain "degraded", .bool recognition.degraded),
    (plain "bbox", optional bboxDocument recognition.bbox),
    (plain "keypoints", optional keypointsDocument recognition.quadrilateral),
    (plain "reasons", .array (recognition.decisionReasons.map fun reason =>
      word ⟨_, isPlain_reasonName reason⟩))]

/-- What the printed document says. -/
def document (result : LprPipelineResult F D) (imageWidth imageHeight : ℤ) : Printed :=
  .object [(plain "imageWidth", integer imageWidth), (plain "imageHeight", integer imageHeight),
    (plain "totalLatencyMs", numeral result.totalLatencyMs),
    (plain "degraded", .bool result.degraded),
    (plain "providerFailureCount", integer result.providerFailureCount),
    (plain "failures", .array (result.failures.map failureDocument)),
    (plain "stageTimings", .array (result.stageTimings.map stageTimingDocument)),
    (plain "recognitions", .array (result.recognitions.map recognitionDocument))]

/-! ## The document is printed -/

@[simp] theorem coe_plain (name : String) (h : ∀ b ∈ ascii name, IsPlain b) :
    (plain name h : Text) = ascii name := rfl

theorem stream_nil : stream [] = [] := rfl

theorem stream_cons (piece : Text) (pieces : List Text) :
    stream (piece :: pieces) = piece ++ stream pieces := rfl

theorem quoted_append (body rest : Text) :
    quoted body ++ rest = [quotationMark] ++ (body ++ ([quotationMark] ++ rest)) := by
  simp [quoted]

/-- The first member of an object. -/
theorem objectText_member (name : String) (text : Text) (others : List Text) :
    objectText (memberText (ascii name) text :: others) = [openBrace] ++
      (key name ++ (text ++ (behindCommas others ++ [closeBrace]))) := by
  simp [objectText, separated, memberText, key]

/-- A member behind it. -/
theorem behindCommas_member (name : String) (text : Text) (others : List Text) (rest : Text) :
    behindCommas (memberText (ascii name) text :: others) ++ rest =
      [comma] ++ (key name ++ (text ++ (behindCommas others ++ rest))) := by
  simp [behindCommas, memberText, key]

theorem behindCommas_nil : behindCommas [] = [] := rfl

theorem arrayText_append {α : Type} {emit : α → Text} {document : α → Printed}
    (h : ∀ a, emit a = (document a).text) (l : List α) (rest : Text) :
    arrayText ((l.map document).map Printed.text) ++ rest =
      [openBracket] ++ (separated (l.map emit) ++ ([closeBracket] ++ rest)) := by
  have hitems : (l.map document).map Printed.text = l.map emit := by
    rw [List.map_map]
    exact List.map_congr_left fun a _ => (h a).symm
  rw [hitems]
  simp [arrayText]

/-- What the code streams is the text of these documents: for a failure, -/
theorem emitFailure_eq (failure : ProviderFailure) :
    emitFailure failure = (failureDocument failure).text := by
  simp only [emitFailure, failureDocument, text_object, List.map_cons, List.map_nil, coe_plain,
    objectText_member, behindCommas_member, behindCommas_nil, text_escaped, text_integer,
    quoted_append, stream_cons, stream_nil, List.append_nil, List.nil_append]

/-- a timing, -/
theorem emitStageTiming_eq (timing : PipelineStageTiming D) :
    emitStageTiming timing = (stageTimingDocument timing).text := by
  simp only [emitStageTiming, stageTimingDocument, text_object, List.map_cons, List.map_nil,
    coe_plain, objectText_member, behindCommas_member, behindCommas_nil, text_escaped,
    text_integer, text_numeral, quoted_append, stream_cons, stream_nil, List.append_nil,
    List.nil_append]

/-- a box, -/
theorem emitBbox_eq (bbox : BoundingBox F) : emitBbox bbox = (bboxDocument bbox).text := by
  simp only [emitBbox, bboxDocument, text_object, List.map_cons, List.map_nil, coe_plain,
    objectText_member, behindCommas_member, behindCommas_nil, text_numeral, stream_cons,
    stream_nil, List.append_nil, List.nil_append]

/-- a keypoint -/
theorem emitKeypoint_eq (quad : PlateQuadrilateral F) (point : Fin 4) :
    emitKeypoint quad point = (keypointDocument quad point).text := by
  simp only [emitKeypoint, keypointDocument, text_object, List.map_cons, List.map_nil, coe_plain,
    objectText_member, behindCommas_member, behindCommas_nil, text_numeral, stream_cons,
    stream_nil, List.append_nil, List.nil_append]

omit [FloatEncoding D] in
/-- and **a recognition**. -/
theorem emitRecognition_eq (recognition : PlateRecognitionResult F D) :
    emitRecognition recognition = (recognitionDocument recognition).text := by
  have hreason (reason : RecognitionDecisionReason) :
      stream [[quotationMark], reasonName reason, [quotationMark]] =
        (word ⟨_, isPlain_reasonName reason⟩).text := by
    rw [text_word, ← List.append_nil (quoted _), quoted_append]
    rfl
  have hbbox : (optional bboxDocument recognition.bbox).text = match recognition.bbox with
      | some bbox => emitBbox bbox
      | none => ascii "null" := by
    cases recognition.bbox with
    | none => rfl
    | some bbox => exact (emitBbox_eq bbox).symm
  have hkeypoints : (optional keypointsDocument recognition.quadrilateral).text =
      match recognition.quadrilateral with
      | some quad =>
          stream [[openBracket], separated ((List.finRange 4).map (emitKeypoint quad)),
            [closeBracket]]
      | none => ascii "null" := by
    cases recognition.quadrilateral with
    | none => rfl
    | some quad =>
      have harray := arrayText_append (emitKeypoint_eq quad) (List.finRange 4) []
      rwa [List.append_nil] at harray
  simp only [emitRecognition, recognitionDocument, text_object, List.map_cons, List.map_nil,
    coe_plain, objectText_member, behindCommas_member, behindCommas_nil, text_escaped, text_numeral,
    text_word, text_bool, text_array, hbbox, hkeypoints, arrayText_append hreason, boolName,
    quoted_append, stream_cons, stream_nil, List.append_nil, List.nil_append]

/-- **The tool prints the document**, and a line feed. -/
theorem emitJson_eq (result : LprPipelineResult F D) (imageWidth imageHeight : ℤ) :
    emitJson result imageWidth imageHeight =
      (document result imageWidth imageHeight).text ++ [0x0A] := by
  simp only [emitJson, document, text_object, List.map_cons, List.map_nil, coe_plain,
    objectText_member, behindCommas_member, behindCommas_nil, text_integer, text_numeral, text_bool,
    text_array, arrayText_append emitFailure_eq, arrayText_append emitStageTiming_eq,
    arrayText_append emitRecognition_eq, boolName, stream_cons, stream_nil, List.append_assoc,
    List.append_nil, List.nil_append]

/-! ## When the output parses -/

/-- The texts of a result that are printed. -/
def printedTexts (result : LprPipelineResult F D) : List Text :=
  result.failures.map ProviderFailure.provider ++
    result.stageTimings.map PipelineStageTiming.stage ++
    result.recognitions.map PlateRecognitionResult.plate

/-- The numbers of a bounding box that are printed. -/
def bboxNumbers (bbox : BoundingBox F) : List F :=
  [bbox.x, bbox.y, bbox.x + bbox.width, bbox.y + bbox.height, bbox.width, bbox.height]

/-- The numbers printed for the keypoints. -/
def keypointNumbers (quad : PlateQuadrilateral F) : List F :=
  (List.finRange 4).flatMap fun point =>
    [(quad.points point).x, (quad.points point).y, quad.confidences point]

/-- The numbers printed for a recognition. -/
def recognitionNumbers (recognition : PlateRecognitionResult F D) : List F :=
  [recognition.confidence, recognition.detectorConfidence, recognition.geometryScore,
    recognition.cropQuality] ++
    recognition.bbox.toList.flatMap bboxNumbers ++
    recognition.quadrilateral.toList.flatMap keypointNumbers

/-- The texts that are printed are escapable, and the numbers finite. -/
structure IsPrintable (result : LprPipelineResult F D) : Prop where
  texts : ∀ text ∈ printedTexts result, ∀ b ∈ text, IsEscapable b
  scores : ∀ recognition ∈ result.recognitions, ∀ v ∈ recognitionNumbers recognition,
    Scalar.isFinite v = true
  stageLatencies : ∀ timing ∈ result.stageTimings, Scalar.isFinite timing.latencyMs = true
  totalLatencyMs : Scalar.isFinite result.totalLatencyMs = true

/-- A failure is read back when its provider may be escaped. -/
theorem ok_failureDocument (failure : ProviderFailure) :
    (failureDocument failure).ok ↔ ∀ b ∈ failure.provider, IsEscapable b := by
  simp [failureDocument]

theorem ok_stageTimingDocument (timing : PipelineStageTiming D) :
    (stageTimingDocument timing).ok ↔
      (∀ b ∈ timing.stage, IsEscapable b) ∧ Scalar.isFinite timing.latencyMs = true := by
  simp [stageTimingDocument]

theorem ok_bboxDocument (bbox : BoundingBox F) :
    (bboxDocument bbox).ok ↔ ∀ v ∈ bboxNumbers bbox, Scalar.isFinite v = true := by
  simp only [bboxDocument, bboxNumbers, ok_object, ok_numeral, List.forall_mem_cons,
    List.not_mem_nil, false_imp_iff, implies_true]

theorem ok_keypointsDocument (quad : PlateQuadrilateral F) :
    (keypointsDocument quad).ok ↔ ∀ v ∈ keypointNumbers quad, Scalar.isFinite v = true := by
  simp only [keypointsDocument, keypointDocument, keypointNumbers, ok_array, ok_object,
    ok_numeral, List.forall_mem_map, List.forall_mem_flatMap, List.forall_mem_cons,
    List.not_mem_nil, false_imp_iff, implies_true]

theorem ok_optional {α : Type} {document : α → Printed} {numbers : α → List F}
    (h : ∀ a, (document a).ok ↔ ∀ v ∈ numbers a, Scalar.isFinite v = true) (value : Option α) :
    (optional document value).ok ↔
      ∀ v ∈ value.toList.flatMap numbers, Scalar.isFinite v = true := by
  cases value with
  | none => simp [optional]
  | some a => simpa [optional] using h a

omit [FloatEncoding D] in
/-- **A recognition is read back** exactly when its plate may be escaped and its numbers are finite.
-/
theorem ok_recognitionDocument (recognition : PlateRecognitionResult F D) :
    (recognitionDocument recognition).ok ↔ (∀ b ∈ recognition.plate, IsEscapable b) ∧
      ∀ v ∈ recognitionNumbers recognition, Scalar.isFinite v = true := by
  simp only [recognitionDocument, recognitionNumbers, ok_object, ok_array, ok_word, ok_escaped,
    ok_numeral, ok_bool, ok_optional ok_bboxDocument, ok_optional ok_keypointsDocument,
    List.forall_mem_cons, List.forall_mem_append, List.forall_mem_map, List.not_mem_nil,
    false_imp_iff, implies_true, and_true, true_and, and_assoc]

/-- **A result is read back** exactly when it is printable. -/
theorem ok_document (result : LprPipelineResult F D) (imageWidth imageHeight : ℤ) :
    (document result imageWidth imageHeight).ok ↔ IsPrintable result := by
  simp only [document, ok_object, ok_array, ok_integer, ok_numeral, ok_bool,
    ok_failureDocument, ok_stageTimingDocument, ok_recognitionDocument, List.forall_mem_cons,
    List.forall_mem_map, List.not_mem_nil, false_imp_iff, implies_true, and_true, true_and]
  constructor
  · rintro ⟨htotal, hfailures, hstages, hrecognitions⟩
    refine ⟨?_, fun recognition h => (hrecognitions recognition h).2,
      fun timing h => (hstages timing h).2, htotal⟩
    simp only [printedTexts, List.forall_mem_append, List.forall_mem_map]
    exact ⟨⟨hfailures, fun timing h => (hstages timing h).1⟩,
      fun recognition h => (hrecognitions recognition h).1⟩
  · rintro ⟨htexts, hscores, hstages, htotal⟩
    simp only [printedTexts, List.forall_mem_append, List.forall_mem_map] at htexts
    obtain ⟨⟨hproviders, hnames⟩, hplates⟩ := htexts
    exact ⟨htotal, hproviders, fun timing h => ⟨hnames timing h, hstages timing h⟩,
      fun recognition h => ⟨hplates recognition h, hscores recognition h⟩⟩

/-- **The document parses** to what it says when its texts are escapable and its numbers finite, and
does not parse otherwise. -/
theorem parse_emitJson (result : LprPipelineResult F D) (imageWidth imageHeight : ℤ) :
    (IsPrintable result → parse (emitJson result imageWidth imageHeight) =
      some (document result imageWidth imageHeight).value) ∧
    (¬ IsPrintable result → parse (emitJson result imageWidth imageHeight) = none) := by
  have hparse := (document result imageWidth imageHeight).reads.parse_eq
    (stops_cons (by decide) : Stops [0x0A]) (by decide)
  rwa [← emitJson_eq, ok_document] at hparse

/-- A text between quotation marks is a literal for itself if its bytes are escapable. -/
theorem stringLiteral_escapeJson (value : Text) :
    stringLiteral (quoted (escapeJson value)) = some value ↔ ∀ b ∈ value, IsEscapable b := by
  have hread := (readsBody_escapeJson value).reads_readString
  constructor
  · intro h
    by_contra hnot
    have hnone := hread.rejects hnot [] stops_nil
    rw [List.append_nil] at hnone
    rw [stringLiteral, hnone] at h
    exact nomatch h
  · intro hok
    have hsome := hread.accepts hok [] stops_nil
    rw [List.append_nil] at hsome
    rw [stringLiteral, hsome]
    rfl

/-- **The JSON output** is well formed and says what it was given exactly when the texts are
escapable and the numbers finite: a literal stands for its text, and a document parses. -/
theorem jsonOutput_iff :
    (∀ value : Text, stringLiteral (quoted (escapeJson value)) = some value ↔
      ∀ b ∈ value, IsEscapable b) ∧
    ∀ (result : LprPipelineResult F D) (imageWidth imageHeight : ℤ),
      (∃ value, parse (emitJson result imageWidth imageHeight) = some value) ↔
        IsPrintable result := by
  refine ⟨stringLiteral_escapeJson, fun result imageWidth imageHeight => ?_⟩
  obtain ⟨haccepts, hrejects⟩ := parse_emitJson result imageWidth imageHeight
  constructor
  · rintro ⟨value, hvalue⟩
    by_contra hnot
    exact nomatch hvalue.symm.trans (hrejects hnot)
  · exact fun h => ⟨_, haccepts h⟩

end

/-- A control character. -/
def controlText : Text := [0x01]

/-- A run with a provider of that name. -/
def controlResult : LprPipelineResult Binary32 Binary64 where
  recognitions := []
  stageTimings := []
  failures := [⟨controlText, .provider⟩]
  totalLatencyMs := 0
  providerFailureCount := 1
  degraded := true

/-- **A control character** is printed as it is: no literal, and no document. -/
theorem control_not_printed :
    stringLiteral (quoted (escapeJson controlText)) = none ∧
      (parse (emitJson controlResult 640 480)).isNone = true := by
  decide +kernel

end LprCli

end FacLpr
