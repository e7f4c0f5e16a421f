import FacLpr.Tools.ExactFits
import Mathlib.Algebra.Order.BigOperators.Group.List

/-!
# Tools/ExactMetrics — the scores of a fit, and the document

Over the reals the metrics of a fit are scores between zero and one (`exists_metrics`): no
prediction is in two bins, so what the bins add up to is an average.  Once its rows are read the
script then fails for a slope alone (`main_exact`).
-/

namespace FacLpr

namespace CalibrationFit

attribute [local instance] realFloat realScalar

variable {ε : ℝ} {samples : List (Sample ℝ)}

/-! ## The metrics of a fit -/

/-- A mean of values in the unit interval lies there. -/
theorem mean_mem (values : List ℝ) (h : ∀ value ∈ values, value ∈ Set.Icc (0 : ℝ) 1) :
    values.sum / values.length ∈ Set.Icc (0 : ℝ) 1 := by
  have hnonneg : 0 ≤ values.sum := List.sum_nonneg fun value hvalue => (h value hvalue).1
  have hle := List.sum_le_card_nsmul values 1 fun value hvalue => (h value hvalue).2
  rw [nsmul_eq_mul, mul_one] at hle
  exact ⟨div_nonneg hnonneg (Nat.cast_nonneg _), div_le_one_of_le₀ hle (Nat.cast_nonneg _)⟩

theorem abs_sub_le_one {x y : ℝ} (hx : x ∈ Set.Icc (0 : ℝ) 1) (hy : y ∈ Set.Icc (0 : ℝ) 1) :
    |x - y| ≤ 1 :=
  abs_le.mpr ⟨by linarith [hx.1, hy.2], by linarith [hx.2, hy.1]⟩

/-- A prediction that can be made of a sample, and its label. -/
def Graded (p : ℝ × ℤ) : Prop :=
  p.1 ∈ Set.Ioo (0 : ℝ) 1 ∧ (p.2 = 0 ∨ p.2 = 1)

theorem Graded.label_mem {p : ℝ × ℤ} (h : Graded p) : (p.2 : ℝ) ∈ Set.Icc (0 : ℝ) 1 := by
  rcases h.2 with hlabel | hlabel <;> simp [hlabel]

/-- A prediction in a bin. -/
noncomputable def inBin (bins index : ℕ) (p : ℝ × ℤ) : Bool :=
  (decide (Scalar.ofRat (index / bins) ≤ p.1) &&
    decide (p.1 < Scalar.ofRat ((index + 1) / bins))) || (index == bins - 1 && p.1 == 1)

/-- No prediction is in two bins. -/
theorem inBin_inj {bins index index' : ℕ} {p : ℝ × ℤ} (h : Graded p)
    (hin : inBin bins index p = true) (hin' : inBin bins index' p = true) : index = index' := by
  have hbounds {index : ℕ} (hin : inBin bins index p = true) :
      (index : ℝ) / bins ≤ p.1 ∧ p.1 < (index + 1) / bins := by
    have hone : p.1 ≠ 1 := h.1.2.ne
    simpa [inBin, ofRat_eq_cast, hone] using hin
  obtain ⟨hlow, hhigh⟩ := hbounds hin
  obtain ⟨hlow', hhigh'⟩ := hbounds hin'
  rcases Nat.eq_zero_or_pos bins with rfl | hbins
  · simp only [Nat.cast_zero, div_zero] at hlow hhigh
    exact absurd hhigh (not_lt.mpr hlow)
  · have hbins' : (0 : ℝ) < bins := Nat.cast_pos.mpr hbins
    have hlt : (index : ℝ) < index' + 1 := (div_lt_div_iff_of_pos_right hbins').mp
      (hlow.trans_lt hhigh')
    have hlt' : (index' : ℝ) < index + 1 := (div_lt_div_iff_of_pos_right hbins').mp
      (hlow'.trans_lt hhigh)
    norm_cast at hlt hlt'
    omega

/-- No prediction is counted in two bins. -/
theorem sum_countP_inBin_le {predicted : List (ℝ × ℤ)} (h : ∀ p ∈ predicted, Graded p)
    (bins count : ℕ) :
    ∑ index ∈ Finset.range count, predicted.countP (inBin bins index) ≤ predicted.length := by
  induction predicted with
  | nil => simp
  | cons p predicted ih =>
    obtain ⟨hp, hpredicted⟩ := List.forall_mem_cons.mp h
    simp only [List.countP_cons, Finset.sum_add_distrib, List.length_cons]
    refine Nat.add_le_add (ih hpredicted) ?_
    rw [← Finset.card_filter]
    refine Finset.card_le_one.mpr fun index hindex index' hindex' => ?_
    exact inBin_inj hp (Finset.mem_filter.mp hindex).2 (Finset.mem_filter.mp hindex').2

theorem ofRat_div (count total : ℕ) :
    (Scalar.ofRat (count / total) : ℝ) = count / total := by
  rw [ofRat_eq_cast, Rat.cast_div, Rat.cast_natCast, Rat.cast_natCast]

theorem ofRat_average (members : List (ℝ × ℤ)) :
    (Scalar.ofRat ((members.map Prod.snd).sum / members.length) : ℝ) =
      (members.map fun p => (p.2 : ℝ)).sum / members.length := by
  rw [ofRat_eq_cast, Rat.cast_div, Rat.cast_natCast, Rat.cast_intCast, Int.cast_list_sum,
    List.map_map]
  rfl

/-- What the predictions of a bin are off by on average, for its share of them. -/
theorem gap_mem {members : List (ℝ × ℤ)} (h : ∀ p ∈ members, Graded p) (total : ℕ) :
    (Scalar.ofRat (members.length / total) : ℝ) *
        |(members.map Prod.fst).sum / Scalar.ofRat members.length -
          Scalar.ofRat ((members.map Prod.snd).sum / members.length)| ∈
      Set.Icc (0 : ℝ) (members.length / total) := by
  have hshare : (0 : ℝ) ≤ members.length / total := by positivity
  have hconfidence := mean_mem (members.map Prod.fst) (List.forall_mem_map.mpr
    fun p hp => Set.Ioo_subset_Icc_self (h p hp).1)
  have haccuracy := mean_mem (members.map fun p => (p.2 : ℝ))
    (List.forall_mem_map.mpr fun p hp => (h p hp).label_mem)
  rw [List.length_map] at hconfidence haccuracy
  have hoff := abs_sub_le_one hconfidence haccuracy
  rw [ofRat_div, ofRat_average, ofRat_eq_cast, Rat.cast_natCast]
  exact ⟨mul_nonneg hshare (abs_nonneg _), mul_le_of_le_one_right hshare hoff⟩

section Exact

variable [NumberReader]

/-- A bin adds its gap. -/
theorem exists_addBin {predicted : List (ℝ × ℤ)} (h : ∀ p ∈ predicted, Graded p) (bins : ℕ)
    (ece : ℝ) (index : ℕ) :
    ∃ gap, addBin predicted bins ece index = .ok (ece + gap) ∧
      gap ∈ Set.Icc (0 : ℝ) (predicted.countP (inBin bins index) / predicted.length) := by
  rw [List.countP_eq_length_filter]
  have hmembers : ∀ p ∈ predicted.filter (inBin bins index), Graded p := fun p hp =>
    h p (List.mem_filter.mp hp).1
  have haddBin : addBin predicted bins ece index =
      if (predicted.filter (inBin bins index)).isEmpty then .ok ece
      else do
        let confidence ← divide
          (PythonFloat.sum ((predicted.filter (inBin bins index)).map Prod.fst))
          (Scalar.ofRat (predicted.filter (inBin bins index)).length)
        let accuracy : ℝ := Scalar.ofRat
          (((predicted.filter (inBin bins index)).map Prod.snd).sum /
            (predicted.filter (inBin bins index)).length)
        return ece + Scalar.ofRat ((predicted.filter (inBin bins index)).length /
          predicted.length) * PythonFloat.abs (confidence - accuracy) := rfl
  rw [haddBin]
  generalize predicted.filter (inBin bins index) = members at hmembers ⊢
  split_ifs with hempty
  · exact ⟨0, by rw [add_zero], le_rfl, by positivity⟩
  · have hlength : (Scalar.ofRat members.length : ℝ) ≠ 0 := by
      rw [ofRat_eq_cast]
      simpa using hempty
    refine ⟨_, except_bind_eq_ok.mpr ⟨_, divide_eq hlength, rfl⟩, ?_⟩
    exact gap_mem hmembers predicted.length

/-- The loop over the bins returns, between zero and the share of the predictions it counted. -/
theorem exists_foldlM_addBin {predicted : List (ℝ × ℤ)} (h : ∀ p ∈ predicted, Graded p)
    (bins count : ℕ) :
    ∃ ece, (List.range count).foldlM (addBin predicted bins) (0 : ℝ) = .ok ece ∧ 0 ≤ ece ∧
      ece ≤ ((∑ index ∈ Finset.range count, predicted.countP (inBin bins index) : ℕ) : ℝ) /
        predicted.length := by
  induction count with
  | zero => exact ⟨0, rfl, le_rfl, by simp⟩
  | succ count ih =>
    obtain ⟨ece, hece, hnonneg, hle⟩ := ih
    obtain ⟨gap, hgap, hgap'⟩ := exists_addBin h bins ece count
    refine ⟨ece + gap, ?_, add_nonneg hnonneg hgap'.1, ?_⟩
    · rw [List.range_succ, List.foldlM_append, hece]
      change List.foldlM (addBin predicted bins) ece [count] = _
      rw [List.foldlM_cons, hgap]
      rfl
    · rw [Finset.sum_range_succ, Nat.cast_add, add_div]
      exact add_le_add hle hgap'.2

/-- **In exact arithmetic the metrics of a fit are scores**: the Brier score is the mean square of
the residuals, the calibration error no more than one. -/
theorem exists_metrics (hpos : 0 < ε) (hhalf : ε < 1 / 2) (hsamples : samples ≠ [])
    (hlabels : ∀ sample ∈ samples, sample.label = 0 ∨ sample.label = 1) (slope intercept : ℝ)
    (bins : ℕ) :
    ∃ measured, metrics samples slope intercept ε bins = .ok measured ∧
      measured.brier =
        (samples.map fun sample => residual ε slope intercept sample ^ 2).sum / samples.length ∧
      measured.brier ∈ Set.Icc (0 : ℝ) 1 ∧ measured.ece ∈ Set.Icc (0 : ℝ) 1 := by
  have hgraded : ∀ p ∈ samples.map fun sample =>
      (calibrationCurve ε slope intercept sample.raw, sample.label), Graded p :=
    List.forall_mem_map.mpr fun sample hsample =>
      ⟨⟨Real.sigmoid_pos _, Real.sigmoid_lt_one _⟩, hlabels sample hsample⟩
  have hlength : (Scalar.ofRat samples.length : ℝ) ≠ 0 := by
    rw [ofRat_eq_cast]
    simpa using hsamples
  have hpredictions : (samples.mapM fun sample => do
      let x ← logit sample.raw ε
      sigmoid (slope * x + intercept)) =
        .ok (samples.map fun sample => calibrationCurve ε slope intercept sample.raw) :=
    except_mapM_eq_ok fun sample _ => predict_eq hpos hhalf slope intercept sample.raw
  obtain ⟨ece, hece, hnonneg, hle⟩ := exists_foldlM_addBin hgraded bins bins
  have hcount := sum_countP_inBin_le hgraded bins bins
  have hbrier : (samples.map fun sample => residual ε slope intercept sample ^ 2).sum /
      samples.length ∈ Set.Icc (0 : ℝ) 1 := by
    have hmean := mean_mem (samples.map fun sample => residual ε slope intercept sample ^ 2)
      (List.forall_mem_map.mpr fun sample hsample => ?_)
    · rwa [List.length_map] at hmean
    · have hp := hgraded _ (List.mem_map_of_mem hsample)
      have hoff := abs_sub_le_one (Set.Ioo_subset_Icc_self hp.1) hp.label_mem
      exact ⟨sq_nonneg _, (sq_le_one_iff_abs_le_one _).mpr hoff⟩
  refine ⟨⟨_, ece⟩, ?_, rfl, hbrier, hnonneg, ?_⟩
  · rw [metrics]
    refine except_bind_eq_ok.mpr ⟨_, hpredictions, ?_⟩
    rw [List.zip_map']
    refine except_bind_eq_ok.mpr ⟨_, except_mapM_eq_ok fun p _ => rfl, ?_⟩
    refine except_bind_eq_ok.mpr ⟨_, divide_eq hlength, ?_⟩
    refine except_bind_eq_ok.mpr ⟨_, hece, ?_⟩
    rw [ofRat_eq_cast, Rat.cast_natCast, List.map_map]
    rfl
  · refine hle.trans (div_le_one_of_le₀ ?_ (Nat.cast_nonneg _))
    exact Nat.cast_le.mpr hcount

/-! ## The document -/

omit [NumberReader] in
/-- Calls that return or throw one error, one after the other, do so too. -/
theorem except_mapM_ok_or_error {ε α β : Type} {l : List α} {f : α → Except ε β} {e : ε}
    (h : ∀ a ∈ l, (∃ b, f a = .ok b) ∨ f a = .error e) :
    (∃ l', l.mapM f = .ok l') ∨ l.mapM f = .error e := by
  induction l with
  | nil => exact .inl ⟨[], rfl⟩
  | cons a l ih =>
    obtain ⟨ha, hl⟩ := List.forall_mem_cons.mp h
    rw [List.mapM_cons]
    rcases ha with ⟨b, hb⟩ | hfailed
    · rw [hb]
      rcases ih hl with ⟨l', hl'⟩ | hfailed
      · exact .inl ⟨b :: l', by rw [hl']; rfl⟩
      · exact .inr (by rw [hfailed]; rfl)
    · exact .inr (by rw [hfailed]; rfl)

omit [NumberReader] in
theorem exists_mapM_eq_ok {ε α β : Type} {l : List α} {f : α → Except ε β}
    (h : ∀ a ∈ l, ∃ b, f a = .ok b) : ∃ l', l.mapM f = .ok l' := by
  induction l with
  | nil => exact ⟨[], rfl⟩
  | cons a l ih =>
    obtain ⟨⟨b, hb⟩, hl⟩ := List.forall_mem_cons.mp h
    obtain ⟨l', hl'⟩ := ih hl
    refine ⟨b :: l', ?_⟩
    rw [List.mapM_cons, hb, hl']
    rfl

/-- Rows that are read are entered in their groups. -/
theorem foldlM_of_readAs {rows : List (CsvRow × ℕ)} {reads : List (GroupKey × Sample ℝ)}
    (h : ReadAs rows reads) (groups : Groups ℝ) :
    rows.foldlM (fun groups numbered => do
      let read ← readRow numbered.1 numbered.2
      return append groups read) groups = .ok (reads.foldl append groups) := by
  induction h generalizing groups with
  | nil => rfl
  | cons hread _ ih =>
    rw [List.foldlM_cons, hread]
    exact ih _

/-- **A file whose rows are read** gives the samples of its groups. -/
theorem loadSamples_of_readAs {file : CsvFile} {reads : List (GroupKey × Sample ℝ)}
    (hcolumns : ∀ column ∈ requiredColumns, column.toList ∈ file.fieldnames)
    (hfailure : file.failure = none) (hreads : ReadAs (file.rows.zipIdx 2) reads)
    (hsome : reads ≠ []) :
    loadSamples (.ok file) = .ok (reads.foldl append OrdMap.empty) := by
  have hmissing : requiredColumns.filter (fun column => column.toList ∉ file.fieldnames) = [] :=
    List.filter_eq_nil_iff.mpr fun column hcolumn => by simpa using hcolumns column hcolumn
  obtain ⟨read, hread⟩ := List.exists_mem_of_ne_nil _ hsome
  have hgroup := mem_groups.mpr ⟨rfl, List.ne_nil_of_mem (mem_samplesOf.mpr hread)⟩
  refine except_bind_eq_ok.mpr ⟨file, rfl, (if_neg (not_not.mpr hmissing)).trans ?_⟩
  refine except_bind_eq_ok.mpr ⟨_, foldlM_of_readAs hreads OrdMap.empty, ?_⟩
  rw [hfailure]
  exact if_neg (List.ne_nil_of_mem hgroup)

/-- A group that is fitted, if it has to be, becomes a segment or a rejection. -/
theorem exists_fitGroup {arguments : Arguments ℝ} (hpos : 0 < arguments.probabilityEpsilon)
    (hhalf : arguments.probabilityEpsilon < 1 / 2) {group : GroupKey × List (Sample ℝ)}
    (hlabels : ∀ sample ∈ group.2, sample.label = 0 ∨ sample.label = 1)
    (hfit : Usable arguments group.2 →
      ∃ fitted, fitLogistic group.2 arguments.probabilityEpsilon = .ok fitted) :
    ∃ result, fitGroup arguments group = .ok result := by
  by_cases husable : Usable arguments group.2
  · obtain ⟨fitted, hfitted⟩ := hfit husable
    obtain ⟨measured, hmeasured, -⟩ :=
      exists_metrics hpos hhalf husable.ne_nil hlabels fitted.1 fitted.2 10
    rw [fitGroup_of_usable hlabels husable]
    exact ⟨_, except_bind_eq_ok.mpr ⟨_, hfitted, except_bind_eq_ok.mpr ⟨_, hmeasured, rfl⟩⟩⟩
  · exact ⟨_, fitGroup_of_not_usable hlabels husable⟩

/-- **A group is fitted**, or its slope is not positive. -/
theorem fitGroup_exact {arguments : Arguments ℝ} (hpos : 0 < arguments.probabilityEpsilon)
    (hhalf : arguments.probabilityEpsilon < 1 / 2) {group : GroupKey × List (Sample ℝ)}
    (hlabels : ∀ sample ∈ group.2, sample.label = 0 ∨ sample.label = 1) :
    (∃ result, fitGroup arguments group = .ok result) ∨
      fitGroup arguments group = .error (.valueError
        "fitted calibration slope is non-positive; segment is not usable") := by
  rcases fitLogistic_cases hpos hhalf group.2 with ⟨fitted, hfitted, -⟩ | hfailed
  · exact .inl (exists_fitGroup hpos hhalf hlabels fun _ => ⟨fitted, hfitted⟩)
  · by_cases husable : Usable arguments group.2
    · rw [fitGroup_of_usable hlabels husable, hfailed]
      exact .inr rfl
    · exact .inl (exists_fitGroup hpos hhalf hlabels fun h => absurd h husable)

/-- A fit has a positive slope and the scores of its predictions. -/
structure FittedSegment.Scored (segment : FittedSegment ℝ) (ε : ℝ) (samples : List (Sample ℝ)) :
    Prop where
  slope : 0 < segment.slope
  brier : segment.metrics.brier = (samples.map fun sample =>
    residual ε segment.slope segment.intercept sample ^ 2).sum / samples.length
  brierMem : segment.metrics.brier ∈ Set.Icc (0 : ℝ) 1
  eceMem : segment.metrics.ece ∈ Set.Icc (0 : ℝ) 1

/-- **A fitted segment is scored** as its metrics say. -/
theorem scored_of_isFit {arguments : Arguments ℝ} (hpos : 0 < arguments.probabilityEpsilon)
    (hhalf : arguments.probabilityEpsilon < 1 / 2)
    (hlabels : ∀ sample ∈ samples, sample.label = 0 ∨ sample.label = 1)
    {segment : FittedSegment ℝ} (h : segment.IsFit arguments samples) :
    segment.Scored arguments.probabilityEpsilon samples := by
  obtain ⟨measured, hmeasured, hbrier, hbrier', hece⟩ :=
    exists_metrics hpos hhalf h.usable.ne_nil hlabels segment.slope segment.intercept 10
  obtain rfl := Except.ok.inj (hmeasured.symm.trans h.measured)
  refine ⟨?_, hbrier, hbrier', hece⟩
  rcases fitLogistic_cases hpos hhalf samples with ⟨fitted, hfitted, hslope⟩ | hfailed
  · obtain rfl := Except.ok.inj (hfitted.symm.trans h.fitted)
    exact hslope
  · cases hfailed.symm.trans h.fitted

omit [NumberReader] in
/-- The bounds of the epsilon, as the script compares them. -/
theorem epsilon_mem {ε : ℝ} (hpos : 0 < ε) (hhalf : ε < 1 / 2) :
    0 < ε ∧ ε < Scalar.ofRat (1 / 2) := by
  refine ⟨hpos, ?_⟩
  rw [ofRat_eq_cast]
  norm_num at hhalf ⊢
  exact hhalf

omit [NumberReader] in
/-- Where a group has enough samples, rows were read. -/
theorem ne_nil_of_usable {arguments : Arguments ℝ} {reads : List (GroupKey × Sample ℝ)}
    {key : GroupKey} (h : Usable arguments (samplesOf reads key)) : reads ≠ [] := by
  obtain ⟨sample, hsample⟩ := List.exists_mem_of_ne_nil _ h.ne_nil
  exact List.ne_nil_of_mem (mem_samplesOf.mp hsample)

section Main

variable {arguments : Arguments ℝ} (hminimum : 0 < arguments.minimumSamples)
  (hpos : 0 < arguments.probabilityEpsilon) (hhalf : arguments.probabilityEpsilon < 1 / 2)
  (hmodel : arguments.modelVersion.strip ≠ []) (hdataset : arguments.datasetVersion.strip ≠ [])

include hminimum hpos hhalf hmodel hdataset

/-- With valid arguments the script writes what it builds. -/
theorem main_of_payload {path : Except PythonError CsvFile} {payload : Payload ℝ}
    (hbuilt : buildPayload arguments path = .ok payload) :
    main arguments path = .wrote payload := by
  rw [main, if_neg (not_le.mpr hminimum), if_neg (not_not.mpr (epsilon_mem hpos hhalf)),
    if_neg (not_or.mpr ⟨hmodel, hdataset⟩), hbuilt]

/-- A value error ends the script with its message. -/
theorem main_of_valueError {path : Except PythonError CsvFile} {message : String}
    (hbuilt : buildPayload arguments path = .error (.valueError message)) :
    main arguments path = .failed ("calibration fit failed: " ++ message) := by
  rw [main, if_neg (not_le.mpr hminimum), if_neg (not_not.mpr (epsilon_mem hpos hhalf)),
    if_neg (not_or.mpr ⟨hmodel, hdataset⟩), hbuilt]

/-- **The script writes its document** when every group with enough samples of both labels is
fitted, and there is one. -/
theorem exists_wrote {file : CsvFile} {reads : List (GroupKey × Sample ℝ)}
    (hcolumns : ∀ column ∈ requiredColumns, column.toList ∈ file.fieldnames)
    (hfailure : file.failure = none) (hreads : ReadAs (file.rows.zipIdx 2) reads)
    {key : GroupKey} (husable : Usable arguments (samplesOf reads key))
    (hfits : ∀ key, Usable arguments (samplesOf reads key) →
      ∃ fitted, fitLogistic (samplesOf reads key) arguments.probabilityEpsilon = .ok fitted) :
    ∃ payload, main arguments (.ok file) = .wrote payload := by
  have hlabels := fun read hread => (labels_of_readAs hreads read hread).2
  have hloaded := loadSamples_of_readAs hcolumns hfailure hreads (ne_nil_of_usable husable)
  obtain ⟨results, hresults⟩ : ∃ results,
      (reads.foldl append OrdMap.empty).entries.mapM (fitGroup arguments) = .ok results := by
    refine exists_mapM_eq_ok fun group hgroup => ?_
    refine exists_fitGroup hpos hhalf (labels_of_groups hlabels group hgroup) fun h => ?_
    have hsamples := (mem_groups.mp hgroup).1
    rw [hsamples] at h ⊢
    exact hfits group.1 h
  obtain ⟨segment, hsegment, -⟩ := exists_segment hresults hlabels husable
  exact ⟨_, main_of_payload hminimum hpos hhalf hmodel hdataset (except_bind_eq_ok.mpr
    ⟨_, hloaded, except_bind_eq_ok.mpr ⟨_, hresults, if_neg (List.ne_nil_of_mem hsegment)⟩⟩)⟩

end Main

/-- **In exact arithmetic the script fails for a slope alone**, once its arguments are valid, its
rows are read and some group has enough samples of both labels; what it writes are scored fits. -/
theorem main_exact {arguments : Arguments ℝ} (hminimum : 0 < arguments.minimumSamples)
    (hpos : 0 < arguments.probabilityEpsilon) (hhalf : arguments.probabilityEpsilon < 1 / 2)
    (hmodel : arguments.modelVersion.strip ≠ []) (hdataset : arguments.datasetVersion.strip ≠ [])
    {file : CsvFile} {reads : List (GroupKey × Sample ℝ)}
    (hcolumns : ∀ column ∈ requiredColumns, column.toList ∈ file.fieldnames)
    (hfailure : file.failure = none) (hreads : ReadAs (file.rows.zipIdx 2) reads)
    {key : GroupKey} (husable : Usable arguments (samplesOf reads key)) :
    (∃ payload, main arguments (.ok file) = .wrote payload ∧ ∀ segment ∈ payload.segments,
      segment.Scored arguments.probabilityEpsilon (samplesOf reads segment.key)) ∨
    main arguments (.ok file) = .failed ("calibration fit failed: " ++
      "fitted calibration slope is non-positive; segment is not usable") := by
  have hlabels := fun read hread => (labels_of_readAs hreads read hread).2
  have hloaded := loadSamples_of_readAs hcolumns hfailure hreads (ne_nil_of_usable husable)
  have hgroups := except_mapM_ok_or_error fun group hgroup =>
    fitGroup_exact hpos hhalf (labels_of_groups hlabels group hgroup)
  rcases hgroups with ⟨results, hresults⟩ | hfailed
  · left
    obtain ⟨segment, hsegment, -⟩ := exists_segment hresults hlabels husable
    have hbuilt : ∃ payload, buildPayload arguments (.ok file) = .ok payload ∧
        payload.segments = results.filterMap Sum.getLeft? :=
      ⟨_, except_bind_eq_ok.mpr ⟨_, hloaded, except_bind_eq_ok.mpr ⟨_, hresults,
        if_neg (List.ne_nil_of_mem hsegment)⟩⟩, rfl⟩
    obtain ⟨payload, hbuilt, hsegments⟩ := hbuilt
    refine ⟨payload, main_of_payload hminimum hpos hhalf hmodel hdataset hbuilt,
      fun segment hsegment => ?_⟩
    rw [hsegments] at hsegment
    exact scored_of_isFit hpos hhalf (fun sample hsample =>
      hlabels _ (mem_samplesOf.mp hsample)) ((mem_segments hresults hlabels segment).mp hsegment)
  · right
    have hbuilt : buildPayload arguments (.ok file) = .error (.valueError
        "fitted calibration slope is non-positive; segment is not usable") := by
      simp only [buildPayload, hloaded, hfailed, bind, Except.bind]
    exact main_of_valueError hminimum hpos hhalf hmodel hdataset hbuilt

end Exact

section Samples

attribute [local instance] sampleNumbers

/-- The arguments of a run that writes its document. -/
noncomputable def sampleArguments : Arguments ℝ where
  modelVersion := "lprnet-1".toList
  datasetVersion := "plates-1".toList
  minimumSamples := 2
  probabilityEpsilon := Scalar.ofRat (1 / 4)

/-- The rows of the sure samples. -/
def sampleCsv : CsvFile where
  fieldnames := requiredColumns.map String.toList
  rows := [("0.9", "1"), ("0.1", "0")].map fun cells => {
    provider := some "lprnet".toList
    cropType := some "plate".toList
    rawConfidence := some cells.1.toList
    label := some cells.2.toList }
  failure := none

noncomputable def sampleReads : List (GroupKey × Sample ℝ) :=
  sureSamples.map fun sample => (toLex ("lprnet".toList, "plate".toList), sample)

theorem readAs_sampleReads : ReadAs (sampleCsv.rows.zipIdx 2) sampleReads := by
  have hrow (confidence label : String) (q : ℚ) (n : ℤ) (line : ℕ)
      (hread : NumberReader.ofText confidence.toList = .ok (Scalar.ofRat q))
      (hlabel : NumberReader.intOfText label.toList = .ok n) (hq : 0 ≤ q ∧ q ≤ 1)
      (hn : n ∈ [0, 1]) :
      readRow (D := ℝ) {
        provider := some "lprnet".toList
        cropType := some "plate".toList
        rawConfidence := some confidence.toList
        label := some label.toList } line =
      .ok (toLex ("lprnet".toList, "plate".toList), { raw := Scalar.ofRat q, label := n }) := by
    have hunit : ¬ (Scalar.isFinite (Scalar.ofRat q : ℝ) = false ∨ (Scalar.ofRat q : ℝ) < 0 ∨
        1 < (Scalar.ofRat q : ℝ)) := by
      have hone : ((q : ℚ) : ℝ) ≤ 1 := by exact_mod_cast hq.2
      rw [ofRat_eq_cast]
      simpa [hone] using hq.1
    have hprovider : stripped (some "lprnet".toList) = .ok "lprnet".toList :=
      congrArg Except.ok (by decide +kernel)
    have hcropType : stripped (some "plate".toList) = .ok "plate".toList :=
      congrArg Except.ok (by decide +kernel)
    exact except_bind_eq_ok.mpr ⟨_, hprovider,
      except_bind_eq_ok.mpr ⟨_, hcropType,
        (if_neg (by decide)).trans (except_bind_eq_ok.mpr ⟨_, hread,
          except_bind_eq_ok.mpr ⟨_, hlabel, (if_neg hunit).trans (if_neg (not_not.mpr hn))⟩⟩)⟩⟩
  exact .cons (hrow "0.9" "1" _ _ 2 rfl rfl (by norm_num) (by decide)) (.cons
    (hrow "0.1" "0" _ _ 3 rfl rfl (by norm_num) (by decide)) .nil)

/-- All samples are of one group. -/
theorem samplesOf_sampleReads (key : GroupKey) :
    samplesOf sampleReads key =
      if toLex ("lprnet".toList, "plate".toList) = key then sureSamples else [] := by
  have hmap : samplesOf sampleReads key = (sureSamples.filter fun _ =>
      toLex ("lprnet".toList, "plate".toList) == key).map id := by
    rw [samplesOf, sampleReads, List.filter_map, List.map_map]
    rfl
  rw [hmap, List.map_id]
  split_ifs with hkey
  · exact List.filter_eq_self.mpr fun _ _ => beq_iff_eq.mpr hkey
  · exact List.filter_eq_nil_iff.mpr fun _ _ h => hkey (beq_iff_eq.mp h)

theorem usable_sampleReads : Usable sampleArguments
    (samplesOf sampleReads (toLex ("lprnet".toList, "plate".toList))) := by
  rw [samplesOf_sampleReads, if_pos rfl]
  exact ⟨le_rfl, by simp [sureSamples], by simp [sureSamples]⟩

theorem epsilon_sampleArguments : 0 < sampleArguments.probabilityEpsilon ∧
    sampleArguments.probabilityEpsilon < 1 / 2 := by
  change 0 < ((1 / 4 : ℚ) : ℝ) ∧ ((1 / 4 : ℚ) : ℝ) < 1 / 2
  norm_num

/-- The sure samples are mirrored, so their group is fitted and a document is written. -/
theorem exists_wrote_sampleCsv :
    ∃ payload, main sampleArguments (.ok sampleCsv) = .wrote payload := by
  obtain ⟨hpos, hhalf⟩ := epsilon_sampleArguments
  refine exists_wrote (by decide) hpos hhalf (by decide) (by decide)
    (fun _ hcolumn => List.mem_map_of_mem hcolumn) rfl readAs_sampleReads usable_sampleReads
    fun key husable => ?_
  rw [samplesOf_sampleReads] at husable ⊢
  split_ifs at husable ⊢
  · obtain ⟨fitted, hfitted, -⟩ := exists_fitLogistic_sureSamples hpos hhalf
    exact ⟨fitted, hfitted⟩
  · exact absurd rfl husable.ne_nil

theorem main_exact_sampleCsv :
    ∃ payload, main sampleArguments (.ok sampleCsv) = .wrote payload ∧
      ∀ segment ∈ payload.segments, segment.Scored sampleArguments.probabilityEpsilon
        (samplesOf sampleReads segment.key) := by
  rcases main_exact (by decide) epsilon_sampleArguments.1 epsilon_sampleArguments.2 (by decide)
    (by decide) (fun _ hcolumn => List.mem_map_of_mem hcolumn) rfl readAs_sampleReads
    usable_sampleReads with hwrote | hfailed
  · exact hwrote
  · obtain ⟨payload, hwrote⟩ := exists_wrote_sampleCsv
    cases hfailed.symm.trans hwrote

theorem main_writes_sampleCsv :
    ∃ payload, main sampleArguments (.ok sampleCsv) = .wrote payload ∧ payload.Written ∧
      ∃ reads, ReadAs (sampleCsv.rows.zipIdx 2) reads ∧
        payload.Reports sampleArguments reads := by
  obtain ⟨payload, hwrote⟩ := exists_wrote_sampleCsv
  obtain ⟨hwritten, file, reads, hfile, hreads, hreports⟩ :=
    main_writes sampleArguments (.ok sampleCsv) payload hwrote
  obtain rfl := Except.ok.inj hfile
  exact ⟨payload, hwrote, hwritten, reads, hreads, hreports⟩

end Samples

end CalibrationFit

end FacLpr
