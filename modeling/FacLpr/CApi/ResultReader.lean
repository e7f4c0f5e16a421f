import FacLpr.CApi.ResultBuffer

/-!
# CApi/ResultReader — reading the result buffer back

The reader follows the offsets, counts and lengths of the v1 structs and nothing else.
`Emits m p R` says `R` holds of what `m` returns in every memory that holds the writes of `m`; the
writes of a program stay inside the interval it reserves, so programs run one after the other do
not disturb each other's, and `R` survives to the end of the pass.
-/

namespace FacLpr

open WireStruct Wire

/-! ## The reader -/

/-- The status a number of the interface stands for. -/
def statusOf (word : UInt32) : Option RecognitionStatus :=
  if word = 0 then some .accepted
  else if word = 1 then some .review
  else if word = 2 then some .rejected
  else none

/-- The reason a number of the interface stands for. -/
def reasonOf (reason : DecisionReasonV1) : Option RecognitionDecisionReason :=
  [.acceptedConsensus, .fatalProviderFailure, .degradedProviderSet,
    .detectorConfidenceBelowMinimum, .geometryBelowMinimum, .cropQualityBelowMinimum,
    .noValidCandidate, .candidateConfidenceBelowReview, .candidateConfidenceBelowAccept,
    .conflictingStrongCandidates][reason.value.toNat]?

def flag (word : UInt32) : Bool := word != 0

/-- The bytes a reference to a text points to. -/
def readText (mem : Memory) (ref : TextRefV1) : Text :=
  (List.range ref.length.toNat).map fun i => mem (ref.offset.toNat + i)

/-- The array of `count` structs at an offset, each read further by `view`. -/
def readArray {T β : Type} [WireStruct T] (view : T → Option β) (mem : Memory)
    (offset count : UInt32) : Option (List β) :=
  (List.range count.toNat).mapM fun i => view (read T mem (offset.toNat + i * size T))

def viewCandidate (mem : Memory) (c : CandidateV1) : PlateCandidate Binary32 where
  text := readText mem c.text
  confidence := c.confidence
  calibratedConfidence := c.calibratedConfidence
  formatValid := flag c.formatValid

/-- The candidates of an array, by its offset and its count. -/
def readCandidates (mem : Memory) (offset count : UInt32) :
    Option (List (PlateCandidate Binary32)) :=
  readArray (fun c : CandidateV1 => some (viewCandidate mem c)) mem offset count

/-- What a reader makes of an evidence record: its candidates are in an array elsewhere. -/
def viewEvidence (mem : Memory) (e : EvidenceV1) :
    Option (RecognitionEvidence Binary32 Binary32) := do
  let candidates ← readCandidates mem e.candidatesOffset e.candidateCount
  return {
    source := readText mem e.source
    candidates
    cropQuality := e.cropQuality
    latencyMs := e.latencyMs }

def viewBbox (b : BboxV1) : BoundingBox Binary32 := ⟨b.x, b.y, b.width, b.height⟩

def viewQuadrilateral (q : QuadrilateralV1) : PlateQuadrilateral Binary32 where
  points i := ⟨(q.points i).x, (q.points i).y⟩
  confidences := q.confidences

/-- A part of a record that is there when its flag is set. -/
def viewOption {T β : Type} (view : T → β) (present : UInt32) (value : T) : Option β :=
  if flag present then some (view value) else none

/-- What a reader makes of a plate record. -/
def viewPlate (mem : Memory) (p : PlateResultV1) :
    Option (PlateRecognitionResult Binary32 Binary32) := do
  let status ← statusOf p.status
  let evidence ← readArray (viewEvidence mem) mem p.evidenceOffset p.evidenceCount
  let alternatives ← readCandidates mem p.alternativesOffset p.alternativesCount
  let decisionReasons ← readArray reasonOf mem p.decisionReasonsOffset p.decisionReasonCount
  return {
    status
    plate := readText mem p.plate
    confidence := p.confidence
    bbox := viewOption viewBbox p.hasBbox p.bbox
    quadrilateral := viewOption viewQuadrilateral p.hasQuadrilateral p.quadrilateral
    detectorConfidence := p.detectorConfidence
    geometryScore := p.geometryScore
    cropQuality := p.cropQuality
    evidence
    alternatives
    decisionReasons
    degraded := flag p.degraded
    totalLatencyMs := p.totalLatencyMs }

/-- What a reader of the buffer sees. -/
structure ResultView where
  recognitions : List (PlateRecognitionResult Binary32 Binary32)
  totalLatencyMs : Binary32
  degraded : Bool
  providerFailureCount : ℕ
  deriving DecidableEq

/-- What a reader makes of the root record. -/
def viewResult (mem : Memory) (root : ResultV1) : Option ResultView := do
  let recognitions ← readArray (viewPlate mem) mem root.recognitionsOffset root.recognitionCount
  return {
    recognitions
    totalLatencyMs := root.totalLatencyMs
    degraded := flag root.degraded
    providerFailureCount := root.providerFailureCount.toNat }

/-- **The reader**, from offset zero of the buffer. -/
def readResult (mem : Memory) : Option ResultView := viewResult mem (read ResultV1 mem 0)

/-! ## What it should see -/

def RecognitionEvidence.narrowed (e : RecognitionEvidence Binary32 Binary64) :
    RecognitionEvidence Binary32 Binary32 :=
  ⟨e.source, e.candidates, e.cropQuality, e.latencyMs.narrow⟩

/-- A recognition with its latencies narrowed to `float`. -/
def PlateRecognitionResult.narrowed (r : PlateRecognitionResult Binary32 Binary64) :
    PlateRecognitionResult Binary32 Binary32 where
  status := r.status
  plate := r.plate
  confidence := r.confidence
  bbox := r.bbox
  quadrilateral := r.quadrilateral
  detectorConfidence := r.detectorConfidence
  geometryScore := r.geometryScore
  cropQuality := r.cropQuality
  evidence := r.evidence.map RecognitionEvidence.narrowed
  alternatives := r.alternatives
  decisionReasons := r.decisionReasons
  degraded := r.degraded
  totalLatencyMs := r.totalLatencyMs.narrow

/-- What the wire carries of a pipeline result. -/
def LprPipelineResult.view (result : LprPipelineResult Binary32 Binary64) : ResultView where
  recognitions := result.recognitions.map PlateRecognitionResult.narrowed
  totalLatencyMs := result.totalLatencyMs.narrow
  degraded := result.degraded
  providerFailureCount := result.providerFailureCount

/-- Every status is read back, -/
@[simp] theorem statusOf_mapStatus (s : RecognitionStatus) : statusOf (mapStatus s) = some s := by
  cases s <;> rfl

/-- and so is every reason. -/
@[simp] theorem reasonOf_mapReason (r : RecognitionDecisionReason) :
    reasonOf ⟨mapReason r⟩ = some r := by
  cases r <;> rfl

@[simp] theorem flag_flagOf (b : Bool) : flag (flagOf b) = b := by
  cases b <;> rfl

/-! ## Programs and what they leave to read -/

/-- The writes of a layout are disjoint and lie between `p` and its end. -/
structure Layout.Inside (p : ℕ) (l : Layout) : Prop where
  le : p ≤ l.finish
  bounds : ∀ w ∈ l.writes, p ≤ w.1 ∧ w.finish ≤ l.finish
  disjoint : l.writes.Pairwise Write.Disjoint

namespace Layout.Inside

variable {p : ℕ} {l l' : Layout}

theorem skip (p : ℕ) : (Layout.skip p).Inside p := ⟨le_refl p, by simp, List.Pairwise.nil⟩

/-- Two layouts, one behind the other. -/
theorem append (h : l.Inside p) (h' : l'.Inside l.finish) : (l ++ l').Inside p where
  le := h.le.trans h'.le
  bounds w hw := by
    rcases List.mem_append.mp hw with hw | hw
    · exact ⟨(h.bounds w hw).1, (h.bounds w hw).2.trans h'.le⟩
    · exact ⟨h.le.trans (h'.bounds w hw).1, (h'.bounds w hw).2⟩
  disjoint := List.pairwise_append.mpr ⟨h.disjoint, h'.disjoint, fun v hv w hw =>
    Or.inl ((h.bounds v hv).2.trans (h'.bounds w hw).1)⟩

end Layout.Inside

/-- **What a program leaves to read**: its writes lie in the interval it reserves, and `R` holds of
its result in every memory that holds them. -/
def Emits {α : Type} (m : Wire α) (p : ℕ) (R : Memory → α → Prop) : Prop :=
  Lays m p fun a l => l.Inside p ∧ ∀ mem, Holds mem l.writes → R mem a

namespace Emits

variable {α β : Type} {m : Wire α} {p : ℕ} {R : Memory → α → Prop}

theorem pure {a : α} (h : ∀ mem, R mem a) : Emits (Pure.pure a) p R :=
  Lays.pure ⟨Layout.Inside.skip p, fun mem _ => h mem⟩

/-- **Sequencing**: what the first program leaves can still be read after the second. -/
theorem bind {f : α → Wire β} {S : Memory → β → Prop} (hm : Emits m p R)
    (hf : ∀ a q, Emits (f a) q fun mem b => R mem a → S mem b) : Emits (m >>= f) p S :=
  Lays.bind hm fun a l ⟨hin, hR⟩ => Lays.mono (hf a l.finish) fun _ _ ⟨hin', hS⟩ =>
    ⟨hin.append hin', fun mem hmem =>
      have h := holds_append.mp hmem
      hS mem h.2 (hR mem h.1)⟩

/-- A program that leaves the writer alone. -/
theorem of_skip {Q : α → Prop} (h : Lays m p fun a l => Q a ∧ l = Layout.skip p) :
    Emits m p fun _ a => Q a :=
  Lays.mono h fun _ _ ⟨hQ, hl⟩ => ⟨hl ▸ Layout.Inside.skip p, fun _ _ => hQ⟩

theorem toU32 (value : ℕ) (field : String) :
    Emits (Wire.toU32 value field) p fun _ word => word.toNat = value :=
  of_skip (Lays.toU32 value field)

theorem finiteFloat (value : Binary32) (field : String) :
    Emits (Wire.finiteFloat value field) p fun _ v => v = value :=
  of_skip (Lays.ite (fun _ => Lays.raise _) fun _ => Lays.pure ⟨rfl, rfl⟩)

theorem probabilityFloat (value : Binary32) (field : String) :
    Emits (Wire.probabilityFloat value field) p fun _ v => v = value :=
  of_skip (Lays.ite (fun _ => Lays.raise _) fun _ => Lays.pure ⟨rfl, rfl⟩)

/-- The one value that is not kept: a latency is narrowed. -/
theorem latencyToFloat (value : Binary64) :
    Emits (Wire.latencyToFloat value) p fun _ v => v = value.narrow :=
  of_skip (Lays.ite (fun _ => Lays.raise _) fun _ => Lays.pure ⟨rfl, rfl⟩)

end Emits

/-! ## Texts and arrays -/

/-- A text is read back from the memory that holds its bytes. -/
theorem readText_eq {mem : Memory} {ref : TextRefV1} {text : Text}
    (hlen : ref.length.toNat = text.length) (h : HoldsWrite mem (ref.offset.toNat, text)) :
    readText mem ref = text := by
  refine List.ext_getElem (by simp [readText, hlen]) fun i hi hi' => ?_
  simpa [readText] using h i hi'

/-- **A text is read back** behind the reference to it. -/
theorem emits_appendText (text : Text) (p : ℕ) :
    Emits (appendText text) p fun mem ref => readText mem ref = text := by
  refine Lays.ite (fun hempty => ?_) fun hne => ?_
  · obtain rfl := List.isEmpty_iff.mp hempty
    exact Lays.pure ⟨Layout.Inside.skip p, fun _ _ => rfl⟩
  refine (Lays.reserve text.length).bind fun offset l h => ?_
  obtain ⟨-, hle, rfl⟩ := h
  rw [writeBytes, if_neg hne]
  refine (Lays.copyBytes _ offset text (le_refl _)).bind fun _ l h => ?_
  subst h
  refine (Lays.toU32 text.length _).bind fun length l h => ?_
  obtain ⟨hlength, rfl⟩ := h
  refine Lays.pure ⟨⟨?_, ?_, ?_⟩, fun mem hmem => ?_⟩
  · exact hle.trans (Nat.le_add_right _ _)
  · intro w hw
    obtain rfl := List.mem_singleton.mp hw
    exact ⟨hle, le_refl _⟩
  · exact List.pairwise_singleton _ _
  · exact readText_eq hlength (hmem _ (List.mem_singleton_self _))

section Arrays

variable {β γ T : Type} [WireStruct T] {serialize : β → Wire T} {view : Memory → T → Option γ}
  {g : β → γ} {items : List β}

/-- **The loop that fills in an array.**  Its writes are the elements' places, all before `p`, and
what the elements reserve from `p` on. -/
theorem lays_writeElements (offset : UInt32) (index p : ℕ)
    (hserialize : ∀ item ∈ items, ∀ q,
      Emits (serialize item) q fun mem t => view mem t = some (g item))
    (hfits : offset.toNat + (index + items.length) * size T ≤ p) :
    Lays (writeElements serialize offset index items) p fun _ l =>
      p ≤ l.finish ∧
      (∀ w ∈ l.writes, (offset.toNat + index * size T ≤ w.1 ∧
          w.finish ≤ offset.toNat + (index + items.length) * size T) ∨
        (p ≤ w.1 ∧ w.finish ≤ l.finish)) ∧
      l.writes.Pairwise Write.Disjoint ∧
      ∀ mem, Holds mem l.writes → (List.range items.length).mapM (fun i =>
        view mem (read T mem (offset.toNat + (index + i) * size T))) = some (items.map g) := by
  induction items generalizing index p with
  | nil => exact Lays.pure ⟨le_refl p, by simp, List.Pairwise.nil, fun _ _ => rfl⟩
  | cons item items ih =>
    have hslot : (index + 1) * size T = index * size T + size T := by rw [Nat.add_mul, Nat.one_mul]
    have hall : (index + (item :: items).length) * size T =
        (index + 1) * size T + items.length * size T := by
      rw [List.length_cons, ← Nat.add_mul]
      congr 1
      omega
    have hrest : (index + 1 + items.length) * size T =
        (index + 1) * size T + items.length * size T := Nat.add_mul _ _ _
    refine Lays.bind (hserialize item List.mem_cons_self p) fun wire l₁ ⟨hin, hview⟩ => ?_
    refine (Lays.elementOffset offset index (size T)).bind fun place l₂ h => ?_
    obtain ⟨hplace, rfl⟩ := h
    have hle := hin.le
    refine (Lays.write place wire (by rw [Layout.finish_skip]; omega)).bind fun _ l₃ h => ?_
    subst h
    refine (ih (index + 1) _ (fun i hi => hserialize i (List.mem_cons_of_mem _ hi))
      (by simp only [Layout.finish_skip]; omega)).mono
      fun _ l₄ ⟨hle₄, hbounds, hdisjoint, hread⟩ => ?_
    simp only [Layout.finish_skip] at hle₄ hbounds
    simp only [Layout.finish_append, Layout.writes_append, Layout.writes_skip, List.nil_append]
    have hplaceFinish : Write.finish (place.toNat, bytes wire) =
        offset.toNat + (index + 1) * size T := by
      simp only [Write.finish, length_bytes, hplace]
      omega
    refine ⟨hle.trans hle₄, ?_, ?_, ?_⟩
    · intro w hw
      rcases List.mem_append.mp hw with hw | hw
      · have := hin.bounds w hw
        exact Or.inr ⟨this.1, this.2.trans hle₄⟩
      rcases List.mem_cons.mp hw with rfl | hw
      · exact Or.inl ⟨hplace.ge, by omega⟩
      · rcases hbounds w hw with ⟨hlo, hhi⟩ | ⟨hlo, hhi⟩
        · exact Or.inl ⟨by omega, by omega⟩
        · exact Or.inr ⟨hle.trans hlo, hhi⟩
    · have hslotRest : ∀ w ∈ l₄.writes, Write.Disjoint (place.toNat, bytes wire) w := fun w hw => by
        refine Or.inl (hplaceFinish.trans_le ?_)
        rcases hbounds w hw with ⟨hlo, -⟩ | ⟨hlo, -⟩
        · exact hlo
        · omega
      have hchild : ∀ v ∈ l₁.writes, ∀ w ∈ (place.toNat, bytes wire) :: l₄.writes,
          Write.Disjoint v w := fun v hv w hw => by
        obtain ⟨hvlo, hvhi⟩ := hin.bounds v hv
        rcases List.mem_cons.mp hw with rfl | hw
        · exact Or.inr (by omega)
        · rcases hbounds w hw with ⟨-, hhi⟩ | ⟨hlo, -⟩
          · exact Or.inr (by omega)
          · exact Or.inl (hvhi.trans hlo)
      exact List.pairwise_append.mpr
        ⟨hin.disjoint, List.pairwise_cons.mpr ⟨hslotRest, hdisjoint⟩, hchild⟩
    · intro mem hmem
      obtain ⟨hchild, hmem⟩ := holds_append.mp hmem
      obtain ⟨hslotMem, hmem⟩ := holds_cons.mp hmem
      have hfirst : view mem (read T mem (offset.toNat + (index + 0) * size T)) =
          some (g item) := by
        rw [Nat.add_zero, ← hplace, read_eq hslotMem]
        exact hview mem hchild
      have hshift : ((fun i => view mem (read T mem (offset.toNat + (index + i) * size T))) ∘
          Nat.succ) = fun i => view mem (read T mem (offset.toNat + (index + 1 + i) * size T)) := by
        funext i
        rw [Function.comp_apply, Nat.succ_eq_add_one, Nat.add_comm i 1, ← Nat.add_assoc]
      rw [List.length_cons, List.range_succ_eq_map, List.mapM_cons, hfirst, List.mapM_map, hshift,
        hread mem hmem]
      rfl

/-- **An array is read back**, whatever its elements reserve behind it. -/
theorem emits_appendArray (field : String) (p : ℕ)
    (hserialize : ∀ item ∈ items, ∀ q,
      Emits (serialize item) q fun mem t => view mem t = some (g item)) :
    Emits (appendArray field serialize items) p fun mem offset => ∀ count : UInt32,
      count.toNat = items.length → readArray (view mem) mem offset count = some (items.map g) := by
  refine Lays.ite (fun hempty => ?_) fun _ => ?_
  · obtain rfl := List.isEmpty_iff.mp hempty
    refine Lays.pure ⟨Layout.Inside.skip p, fun mem _ count hcount => ?_⟩
    rw [readArray, hcount]
    rfl
  refine (Lays.checkedArrayBytes items.length (size T) field).bind fun bytes l h => ?_
  obtain ⟨rfl, -, rfl⟩ := h
  refine (Lays.reserve _).bind fun offset l h => ?_
  obtain ⟨-, hle, rfl⟩ := h
  refine (lays_writeElements offset 0 _ hserialize (by rw [Nat.zero_add])).bind
    fun _ l ⟨hfinish, hbounds, hdisjoint, hread⟩ => ?_
  refine Lays.pure ⟨⟨?_, ?_, ?_⟩, fun mem hmem count hcount => ?_⟩
  · exact hle.trans ((Nat.le_add_right _ _).trans hfinish)
  · intro w hw
    simp only [Layout.writes_append, Layout.writes_skip, List.nil_append, List.append_nil] at hw
    simp only [Layout.finish_append, Layout.finish_skip]
    rcases hbounds w hw with ⟨hlo, hhi⟩ | ⟨hlo, hhi⟩
    · rw [Nat.zero_add] at hhi
      exact ⟨hle.trans ((Nat.le_add_right _ _).trans hlo), hhi.trans hfinish⟩
    · exact ⟨hle.trans ((Nat.le_add_right _ _).trans hlo), hhi⟩
  · simpa only [Layout.writes_append, Layout.writes_skip, List.nil_append, List.append_nil]
      using hdisjoint
  · simp only [Layout.writes_append, Layout.writes_skip, List.nil_append, List.append_nil] at hmem
    have h := hread mem hmem
    simp only [Nat.zero_add] at h
    rw [readArray, hcount]
    exact h

end Arrays

/-! ## The records -/

theorem emits_serializeCandidate (c : PlateCandidate Binary32) (p : ℕ) :
    Emits (serializeCandidate c) p fun mem t => some (viewCandidate mem t) = some c := by
  refine (emits_appendText c.text p).bind fun text q => ?_
  refine (Emits.probabilityFloat c.confidence _).bind fun confidence q => ?_
  refine (Emits.probabilityFloat c.calibratedConfidence _).bind fun calibrated q => ?_
  refine Emits.pure fun mem hcalibrated hconfidence htext => ?_
  simp only [viewCandidate, htext, hconfidence, hcalibrated, flag_flagOf]

/-- **An array of candidates is read back** from its offset and its count. -/
theorem emits_appendCandidates (candidates : List (PlateCandidate Binary32)) (p : ℕ) :
    Emits (appendCandidates candidates) p fun mem offset => ∀ count : UInt32,
      count.toNat = candidates.length → readCandidates mem offset count = some candidates := by
  have h := emits_appendArray (g := id) "candidate array size" p
    fun (c : PlateCandidate Binary32) (_ : c ∈ candidates) q => emits_serializeCandidate c q
  rw [List.map_id] at h
  exact h

theorem emits_serializeEvidence (item : RecognitionEvidence Binary32 Binary64) (p : ℕ) :
    Emits (serializeEvidence item) p fun mem t => viewEvidence mem t = some item.narrowed := by
  refine (emits_appendCandidates item.candidates p).bind fun offset q => ?_
  refine (emits_appendText item.source q).bind fun source q => ?_
  refine (Emits.probabilityFloat item.cropQuality _).bind fun quality q => ?_
  refine (Emits.latencyToFloat item.latencyMs).bind fun latency q => ?_
  refine (Emits.toU32 item.candidates.length _).bind fun count q => ?_
  refine Emits.pure fun mem hcount hlatency hquality hsource hcandidates => ?_
  rw [viewEvidence, hcandidates count hcount, hsource, hquality, hlatency]
  rfl

theorem emits_appendEvidence (evidence : List (RecognitionEvidence Binary32 Binary64)) (p : ℕ) :
    Emits (appendEvidence evidence) p fun mem offset => ∀ count : UInt32,
      count.toNat = evidence.length → readArray (viewEvidence mem) mem offset count =
        some (evidence.map RecognitionEvidence.narrowed) :=
  emits_appendArray _ p fun item _ q => emits_serializeEvidence item q

theorem emits_appendReasons (reasons : List RecognitionDecisionReason) (p : ℕ) :
    Emits (appendReasons reasons) p fun mem offset => ∀ count : UInt32,
      count.toNat = reasons.length → readArray reasonOf mem offset count = some reasons := by
  have h : Emits (appendReasons reasons) p fun mem offset => ∀ count : UInt32,
      count.toNat = reasons.length →
        readArray reasonOf mem offset count = some (reasons.map id) :=
    emits_appendArray _ p fun reason _ q => Emits.pure fun _ => reasonOf_mapReason reason
  rw [List.map_id] at h
  exact h

theorem emits_serializeBbox (bbox : BoundingBox Binary32) (p : ℕ) :
    Emits (serializeBbox bbox) p fun _ b => viewBbox b = bbox := by
  refine (Emits.finiteFloat bbox.x _).bind fun x q => ?_
  refine (Emits.finiteFloat bbox.y _).bind fun y q => ?_
  refine (Emits.finiteFloat bbox.width _).bind fun width q => ?_
  refine (Emits.finiteFloat bbox.height _).bind fun height q => ?_
  refine Emits.pure fun mem hheight hwidth hy hx => ?_
  rw [hx, hy, hwidth, hheight, viewBbox]

theorem emits_serializeCorner (quad : PlateQuadrilateral Binary32) (i : Fin 4) (p : ℕ) :
    Emits (serializeCorner quad i) p fun _ c =>
      (⟨c.1.x, c.1.y⟩ : Point2f Binary32) = quad.points i ∧ c.2 = quad.confidences i := by
  refine (Emits.finiteFloat (quad.points i).x _).bind fun x q => ?_
  refine (Emits.finiteFloat (quad.points i).y _).bind fun y q => ?_
  refine (Emits.probabilityFloat (quad.confidences i) _).bind fun confidence q => ?_
  refine Emits.pure fun mem hconfidence hy hx => ?_
  rw [hx, hy, hconfidence]
  exact ⟨rfl, rfl⟩

theorem emits_serializeQuadrilateral (quad : PlateQuadrilateral Binary32) (p : ℕ) :
    Emits (serializeQuadrilateral quad) p fun _ q => viewQuadrilateral q = quad := by
  refine (emits_serializeCorner quad 0 p).bind fun c₀ q => ?_
  refine (emits_serializeCorner quad 1 q).bind fun c₁ q => ?_
  refine (emits_serializeCorner quad 2 q).bind fun c₂ q => ?_
  refine (emits_serializeCorner quad 3 q).bind fun c₃ q => ?_
  refine Emits.pure fun mem h₃ h₂ h₁ h₀ => ?_
  have hpoints : (fun i => (⟨(![c₀.1, c₁.1, c₂.1, c₃.1] i).x, (![c₀.1, c₁.1, c₂.1, c₃.1] i).y⟩ :
      Point2f Binary32)) = quad.points := by
    funext i
    fin_cases i
    exacts [h₀.1, h₁.1, h₂.1, h₃.1]
  have hconfidences : ![c₀.2, c₁.2, c₂.2, c₃.2] = quad.confidences := by
    funext i
    fin_cases i
    exacts [h₀.2, h₁.2, h₂.2, h₃.2]
  exact congrArg₂ PlateQuadrilateral.mk hpoints hconfidences

/-- An optional part is read back as it was. -/
theorem emits_serializeOption {β T : Type} {zero : T} {serialize : β → Wire T} {view : T → β}
    (hserialize : ∀ value q, Emits (serialize value) q fun _ t => view t = value)
    (value : Option β) (p : ℕ) :
    Emits (serializeOption zero serialize value) p fun _ t => viewOption view t.1 t.2 = value := by
  cases value with
  | none => exact Emits.pure fun _ => rfl
  | some value =>
    refine (hserialize value p).bind fun t q => ?_
    refine Emits.pure fun mem ht => ?_
    rw [viewOption, ht]
    rfl

/-- **A recognition is read back**, with all that its record refers to. -/
theorem emits_serializePlate (r : PlateRecognitionResult Binary32 Binary64) (p : ℕ) :
    Emits (serializePlate r) p fun mem t => viewPlate mem t = some r.narrowed := by
  refine (emits_appendText r.plate p).bind fun plate q => ?_
  refine (Emits.probabilityFloat r.confidence _).bind fun confidence q => ?_
  refine (Emits.probabilityFloat r.detectorConfidence _).bind fun detector q => ?_
  refine (Emits.probabilityFloat r.geometryScore _).bind fun geometry q => ?_
  refine (Emits.probabilityFloat r.cropQuality _).bind fun quality q => ?_
  refine (Emits.latencyToFloat r.totalLatencyMs).bind fun latency q => ?_
  refine (emits_serializeOption emits_serializeBbox r.bbox q).bind fun bbox q => ?_
  refine (emits_serializeOption emits_serializeQuadrilateral r.quadrilateral q).bind
    fun quad q => ?_
  refine (Emits.toU32 r.evidence.length _).bind fun evidenceCount q => ?_
  refine (emits_appendEvidence r.evidence q).bind fun evidenceOffset q => ?_
  refine (Emits.toU32 r.alternatives.length _).bind fun alternativesCount q => ?_
  refine (emits_appendCandidates r.alternatives q).bind fun alternativesOffset q => ?_
  refine (Emits.toU32 r.decisionReasons.length _).bind fun reasonCount q => ?_
  refine (emits_appendReasons r.decisionReasons q).bind fun reasonsOffset q => ?_
  refine Emits.pure fun mem hreasons hreasonCount halternatives halternativesCount hevidence
    hevidenceCount hquad hbbox hlatency hquality hgeometry hdetector hconfidence hplate => ?_
  rw [viewPlate]
  simp only [statusOf_mapStatus, hevidence _ hevidenceCount, halternatives _ halternativesCount,
    hreasons _ hreasonCount, hplate, hconfidence, hbbox, hquad, hdetector, hgeometry, hquality,
    hlatency, flag_flagOf]
  rfl

theorem lays_position (p : ℕ) :
    Lays (do return (← get).position) p fun n l => n = p ∧ l = Layout.skip p := fun hp =>
  Or.inr ⟨p, Layout.skip p, ⟨rfl, rfl⟩, le_refl p, hp, fun w hw _ => by
    subst hw
    rw [w.advance_skip]
    rfl⟩

/-- **A result is read back** from its root record. -/
theorem emits_serializeRoot (result : LprPipelineResult Binary32 Binary64) (p : ℕ) :
    Emits (serializeRoot result) p fun mem root => viewResult mem root = some result.view := by
  have hplates : Emits (appendArray "recognition array size" serializePlate result.recognitions) p
      fun mem offset => ∀ count : UInt32, count.toNat = result.recognitions.length →
        readArray (viewPlate mem) mem offset count =
          some (result.recognitions.map PlateRecognitionResult.narrowed) :=
    emits_appendArray _ p fun r _ q => emits_serializePlate r q
  refine hplates.bind fun offset q => ?_
  refine (Emits.toU32 result.recognitions.length _).bind fun count q => ?_
  refine (Emits.latencyToFloat result.totalLatencyMs).bind fun latency q => ?_
  refine (Emits.toU32 result.providerFailureCount _).bind fun failures q => ?_
  refine Emits.pure fun mem hfailures hlatency hcount hread => ?_
  rw [viewResult, hread count hcount, hlatency, hfailures, flag_flagOf]
  rfl

/-- **A whole pass**: it returns the size it reserves, its writes are disjoint and lie inside, and
the reader recovers the result from every memory that holds them. -/
theorem lays_serializeImpl (result : LprPipelineResult Binary32 Binary64) :
    Lays (serializeImpl result) 0 fun required l =>
      required = l.finish ∧ l.Inside 0 ∧
        ∀ mem, Holds mem l.writes → readResult mem = some result.view := by
  refine (Lays.reserve (size ResultV1)).bind fun rootOffset l h => ?_
  obtain ⟨-, -, rfl⟩ := h
  refine Lays.ite (fun _ => Lays.raise _) fun hroot => ?_
  rw [not_not] at hroot
  subst hroot
  refine Lays.bind (emits_serializeRoot result _) fun root l ⟨hin, hview⟩ => ?_
  refine (Lays.write 0 root hin.le).bind fun _ l' h => ?_
  subst h
  refine (lays_position _).mono fun required l' h => ?_
  obtain ⟨rfl, rfl⟩ := h
  have hrootFinish : Write.finish (0, bytes root) = size ResultV1 := by
    rw [Write.finish, length_bytes, Nat.zero_add]
  have hsize : (0 : UInt32).toNat + size ResultV1 = size ResultV1 := Nat.zero_add _
  rw [hsize] at hin
  have hwrites : ∀ r : List (ℕ × ℕ), (Layout.mk (size ResultV1) r [] ++ (l ++
      (Layout.mk l.finish [] [(0, bytes root)] ++ Layout.skip l.finish))).writes =
        l.writes ++ [(0, bytes root)] := fun r => by simp
  refine ⟨rfl, ⟨Nat.zero_le _, fun w hw => ⟨Nat.zero_le _, ?_⟩, ?_⟩, fun mem hmem => ?_⟩
  · rcases List.mem_append.mp ((hwrites _) ▸ hw) with hw | hw
    · exact (hin.bounds w hw).2
    · rw [List.mem_singleton.mp hw, hrootFinish]
      exact hin.le
  · refine (hwrites _).symm ▸ List.pairwise_append.mpr
      ⟨hin.disjoint, List.pairwise_singleton _ _, fun v hv w hw => ?_⟩
    rw [List.mem_singleton.mp hw]
    exact Or.inr (hrootFinish.trans_le (hin.bounds v hv).1)
  · obtain ⟨hchild, hroot⟩ := holds_append.mp ((hwrites _) ▸ hmem)
    rw [readResult, read_eq (hroot _ (List.mem_singleton_self _))]
    exact hview mem hchild

end FacLpr
