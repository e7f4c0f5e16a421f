import FacLpr.Infrastructure.Config.CalibrationJsonAdapter

/-!
# Infrastructure/Config/LoadedCalibrations — which calibrations the loader returns

The constructor of the calibrator takes a configuration and segments that fit, under keys of their
own (`build_eq_ok`), and keeps each segment under its key.
-/

namespace FacLpr

namespace LogisticConfidenceCalibrator

variable {F : Type} [Scalar F]

/-! ## What the constructor takes -/

/-- The key of a segment. -/
def segmentKey (segment : LogisticCalibrationSegment F) : Text :=
  key segment.provider segment.cropType

/-- What the constructor checks of a segment by itself. -/
structure Fit (segment : LogisticCalibrationSegment F) : Prop where
  provider : segment.provider ≠ []
  finiteSlope : Scalar.isFinite segment.slope = true
  positiveSlope : ¬ segment.slope ≤ 0
  finiteIntercept : Scalar.isFinite segment.intercept = true

/-- What the constructor checks of a configuration. -/
structure FitConfig (config : LogisticCalibrationConfig F) : Prop where
  minimumSamples : config.minimumSamples ≠ 0
  finite : Scalar.isFinite config.probabilityEpsilon = true
  positive : ¬ config.probabilityEpsilon ≤ 0
  belowHalf : ¬ Scalar.ofRat (1 / 2) ≤ config.probabilityEpsilon

/-- A table with one more segment. -/
def store (table : OrdMap Text (LogisticCalibrationSegment F))
    (segment : LogisticCalibrationSegment F) : OrdMap Text (LogisticCalibrationSegment F) :=
  table.upsert (segmentKey segment) fun _ => segment

theorem find?_store_self (table : OrdMap Text (LogisticCalibrationSegment F))
    (segment : LogisticCalibrationSegment F) :
    (store table segment).find? (segmentKey segment) = some segment :=
  OrdMap.find?_upsert_self _ _ _

theorem find?_store_of_ne (table : OrdMap Text (LogisticCalibrationSegment F))
    {segment : LogisticCalibrationSegment F} {k : Text} (hk : k ≠ segmentKey segment) :
    (store table segment).find? k = table.find? k :=
  OrdMap.find?_upsert_of_ne _ _ hk

theorem addSegment_eq_ok {table table' : OrdMap Text (LogisticCalibrationSegment F)}
    {segment : LogisticCalibrationSegment F} :
    addSegment table segment = .ok table' ↔
      (Fit segment ∧ table.find? (segmentKey segment) = none) ∧ table' = store table segment := by
  simp only [addSegment, except_bind_eq_ok, require_eq_ok, Bool.and_eq_true, Bool.not_eq_true',
    decide_eq_false_iff_not, List.isEmpty_eq_false_iff, Option.isNone_iff_eq_none]
  constructor
  · rintro ⟨_, hprovider, _, ⟨⟨hfinite, hpositive⟩, hintercept⟩, _, hfree, h⟩
    exact ⟨⟨⟨hprovider, hfinite, hpositive, hintercept⟩, hfree⟩, (Except.ok.inj h).symm⟩
  · rintro ⟨⟨hfit, hfree⟩, rfl⟩
    exact ⟨(), hfit.provider, (), ⟨⟨hfit.finiteSlope, hfit.positiveSlope⟩, hfit.finiteIntercept⟩,
      (), hfree, rfl⟩

/-- **The loop of the constructor** stores the segments that fit, under keys of their own. -/
theorem foldlM_addSegment_eq_ok {segments : List (LogisticCalibrationSegment F)}
    {table table' : OrdMap Text (LogisticCalibrationSegment F)} :
    segments.foldlM addSegment table = .ok table' ↔
      ((∀ segment ∈ segments, Fit segment ∧ table.find? (segmentKey segment) = none) ∧
        (segments.map segmentKey).Nodup) ∧ table' = segments.foldl store table := by
  induction segments generalizing table with
  | nil => simp [pure, Except.pure, eq_comm]
  | cons segment segments ih =>
    rw [List.foldlM_cons, except_bind_eq_ok, List.map_cons, List.nodup_cons, List.forall_mem_cons,
      List.foldl_cons]
    constructor
    · rintro ⟨next, hnext, hrest⟩
      obtain ⟨hsegment, rfl⟩ := addSegment_eq_ok.mp hnext
      obtain ⟨⟨hsegments, hnodup⟩, htable⟩ := ih.mp hrest
      have hne : ∀ other ∈ segments, segmentKey other ≠ segmentKey segment := by
        intro other hother hkey
        have hfree := (hsegments other hother).2
        rw [hkey, find?_store_self] at hfree
        cases hfree
      have hfree : ∀ other ∈ segments, Fit other ∧ table.find? (segmentKey other) = none := by
        intro other hother
        rw [← find?_store_of_ne table (hne other hother)]
        exact hsegments other hother
      refine ⟨⟨⟨hsegment, hfree⟩, fun hmem => ?_, hnodup⟩, htable⟩
      obtain ⟨other, hother, hkey⟩ := List.mem_map.mp hmem
      exact hne other hother hkey
    · rintro ⟨⟨⟨hsegment, hsegments⟩, hnew, hnodup⟩, htable⟩
      refine ⟨store table segment, addSegment_eq_ok.mpr ⟨hsegment, rfl⟩,
        ih.mpr ⟨⟨fun other hother => ?_, hnodup⟩, htable⟩⟩
      have hne : segmentKey other ≠ segmentKey segment := fun hkey =>
        hnew (hkey ▸ List.mem_map_of_mem hother)
      rw [find?_store_of_ne table hne]
      exact hsegments other hother

/-- **The constructor** takes a configuration and segments that fit, each of a provider and a crop
type of its own. -/
theorem build_eq_ok {config : LogisticCalibrationConfig F}
    {segments : List (LogisticCalibrationSegment F)}
    {table : OrdMap Text (LogisticCalibrationSegment F)} :
    build config segments = .ok table ↔
      (FitConfig config ∧ (∀ segment ∈ segments, Fit segment) ∧
        (segments.map segmentKey).Nodup) ∧ table = segments.foldl store OrdMap.empty := by
  simp only [build, except_bind_eq_ok, require_eq_ok, Bool.and_eq_true, Bool.not_eq_true',
    decide_eq_false_iff_not, decide_eq_true_eq, foldlM_addSegment_eq_ok, OrdMap.find?_empty,
    and_true]
  constructor
  · rintro ⟨_, hminimum, _, ⟨⟨hfinite, hpositive⟩, hhalf⟩, ⟨hsegments, hnodup⟩, htable⟩
    exact ⟨⟨⟨hminimum, hfinite, hpositive, hhalf⟩, hsegments, hnodup⟩, htable⟩
  · rintro ⟨⟨hconfig, hsegments, hnodup⟩, htable⟩
    exact ⟨(), hconfig.minimumSamples, (), ⟨⟨hconfig.finite, hconfig.positive⟩, hconfig.belowHalf⟩,
      ⟨hsegments, hnodup⟩, htable⟩

theorem find?_foldl_store {segments : List (LogisticCalibrationSegment F)} (k : Text)
    (table : OrdMap Text (LogisticCalibrationSegment F)) :
    (∀ segment ∈ segments, segmentKey segment ≠ k) →
      (segments.foldl store table).find? k = table.find? k := by
  induction segments generalizing table with
  | nil => exact fun _ => rfl
  | cons segment segments ih =>
    intro h
    obtain ⟨hsegment, hsegments⟩ := List.forall_mem_cons.mp h
    rw [List.foldl_cons, ih _ hsegments, find?_store_of_ne table (Ne.symm hsegment)]

/-- Each segment is found under its key. -/
theorem find?_foldl_store_of_mem {segments : List (LogisticCalibrationSegment F)}
    (hnodup : (segments.map segmentKey).Nodup) {segment : LogisticCalibrationSegment F}
    (hsegment : segment ∈ segments) (table : OrdMap Text (LogisticCalibrationSegment F)) :
    (segments.foldl store table).find? (segmentKey segment) = some segment := by
  induction segments generalizing table with
  | nil => exact absurd hsegment List.not_mem_nil
  | cons first segments ih =>
    rw [List.map_cons, List.nodup_cons] at hnodup
    rw [List.foldl_cons]
    rcases List.mem_cons.mp hsegment with rfl | hsegment
    · rw [find?_foldl_store, find?_store_self]
      exact fun other hother hkey => hnodup.1 (hkey ▸ List.mem_map_of_mem hother)
    · exact ih hnodup.2 hsegment _

end LogisticConfidenceCalibrator

end FacLpr
