import FacLpr.Foundations.Run
import FacLpr.Infrastructure.Config.LoadedCalibrations
import FacLpr.Tools.CalibrationFit

/-!
# Tools/FittedCalibrations — what the script writes, the engine loads

A document that the script writes reports every group of samples once, and fits exactly the groups
with enough samples of both labels (`main_writes`).  The engine loads it if and only if its numbers
survive the narrowing and its segments have keys of their own; and then finds each segment
(`loads_written`).
-/

namespace FacLpr

open CalibrationJson JsonConfig LogisticConfidenceCalibrator

namespace CalibrationFit

/-! ## The groups of the rows -/

section Groups

variable {D : Type} [PythonFloat D]

/-- The rows of a file, numbered, give these groups and samples. -/
def ReadAs (rows : List (CsvRow × ℕ)) (reads : List (GroupKey × Sample D)) : Prop :=
  List.Forall₂ (fun row read => readRow row.1 row.2 = .ok read) rows reads

/-- The samples of a group, in the order of their rows. -/
def samplesOf (reads : List (GroupKey × Sample D)) (key : GroupKey) : List (Sample D) :=
  (reads.filter fun read => read.1 == key).map Prod.snd

theorem readRow_eq_ok {row : CsvRow} {line : ℕ} {read : GroupKey × Sample D}
    (h : readRow row line = .ok read) :
    (ofLex read.1).1 ≠ [] ∧ (read.2.label = 0 ∨ read.2.label = 1) := by
  simp only [readRow] at h
  obtain ⟨provider, -, h⟩ := except_bind_eq_ok.mp h
  obtain ⟨cropType, -, h⟩ := except_bind_eq_ok.mp h
  split_ifs at h with hprovider
  obtain ⟨raw, -, h⟩ := except_bind_eq_ok.mp h
  obtain ⟨label, -, h⟩ := except_bind_eq_ok.mp h
  split_ifs at h with hraw hlabel
  obtain rfl := Except.ok.inj h
  exact ⟨hprovider, by simpa using hlabel⟩

theorem labels_of_readAs {rows : List (CsvRow × ℕ)} {reads : List (GroupKey × Sample D)}
    (h : ReadAs rows reads) : ∀ read ∈ reads,
      (ofLex read.1).1 ≠ [] ∧ (read.2.label = 0 ∨ read.2.label = 1) := by
  induction h with
  | nil => exact fun read hread => absurd hread List.not_mem_nil
  | cons hread _ ih => exact List.forall_mem_cons.mpr ⟨readRow_eq_ok hread, ih⟩

/-- The loop over the rows appends what they give. -/
theorem foldlM_readRow {rows : List (CsvRow × ℕ)} {groups groups' : Groups D}
    (h : rows.foldlM (fun groups numbered => do
      let read ← readRow numbered.1 numbered.2
      return append groups read) groups = .ok groups') :
    ∃ reads, ReadAs rows reads ∧ groups' = reads.foldl append groups := by
  induction rows generalizing groups with
  | nil =>
    obtain rfl := Except.ok.inj h
    exact ⟨[], .nil, rfl⟩
  | cons row rows ih =>
    rw [List.foldlM_cons] at h
    obtain ⟨next, hnext, hrest⟩ := except_bind_eq_ok.mp h
    obtain ⟨read, hread, hnext⟩ := except_bind_eq_ok.mp hnext
    obtain rfl := Except.ok.inj hnext
    obtain ⟨reads, hreads, rfl⟩ := ih hrest
    exact ⟨read :: reads, .cons hread hreads, rfl⟩

theorem loadSamples_eq_ok {path : Except PythonError CsvFile} {groups : Groups D}
    (h : loadSamples path = .ok groups) :
    ∃ file reads, path = .ok file ∧ ReadAs (file.rows.zipIdx 2) reads ∧
      groups = reads.foldl append OrdMap.empty := by
  simp only [loadSamples] at h
  obtain ⟨file, hfile, h⟩ := except_bind_eq_ok.mp h
  split_ifs at h with hmissing
  obtain ⟨groups', hgroups, h⟩ := except_bind_eq_ok.mp h
  obtain ⟨reads, hreads, rfl⟩ := foldlM_readRow hgroups
  cases hfailure : file.failure with
  | some error =>
    rw [hfailure] at h
    cases h
  | none =>
    rw [hfailure] at h
    dsimp only at h
    split_ifs at h with hempty
    exact ⟨file, reads, hfile, hreads, (Except.ok.inj h).symm⟩

omit [PythonFloat D] in
theorem mem_samplesOf {reads : List (GroupKey × Sample D)} {key : GroupKey} {sample : Sample D} :
    sample ∈ samplesOf reads key ↔ (key, sample) ∈ reads := by
  simp only [samplesOf, List.mem_map, List.mem_filter, beq_iff_eq]
  constructor
  · rintro ⟨read, ⟨hread, rfl⟩, rfl⟩
    exact hread
  · exact fun h => ⟨(key, sample), ⟨h, rfl⟩, rfl⟩

omit [PythonFloat D] in
/-- A loop that appends to one list. -/
theorem foldl_append_eq {reads : List (GroupKey × Sample D)} (stored : Option (List (Sample D))) :
    reads.foldl (fun stored read => some (stored.getD [] ++ [read.2])) stored =
      if reads = [] then stored else some (stored.getD [] ++ reads.map Prod.snd) := by
  induction reads generalizing stored with
  | nil => rfl
  | cons read reads ih =>
    rw [List.foldl_cons, ih, if_neg (List.cons_ne_nil _ _)]
    split_ifs with hreads
    · rw [hreads]
      rfl
    · simp

omit [PythonFloat D] in
/-- **A group holds its samples**, and there is none without a sample. -/
theorem mem_groups {reads : List (GroupKey × Sample D)} {key : GroupKey}
    {samples : List (Sample D)} :
    (key, samples) ∈ (reads.foldl append (OrdMap.empty : Groups D)).entries ↔
      samples = samplesOf reads key ∧ samples ≠ [] := by
  have hfind := OrdMap.find?_foldl_upsert Prod.fst
    (fun (read : GroupKey × Sample D) stored => stored.getD [] ++ [read.2]) key reads OrdMap.empty
  rw [foldl_append_eq] at hfind
  have hmem : (key, samples) ∈ (reads.foldl append (OrdMap.empty : Groups D)).entries ↔
      (reads.foldl append (OrdMap.empty : Groups D)).find? key = some samples :=
    OrdMap.mem_entries
  rw [hmem]
  refine (Eq.congr_left hfind).trans ?_
  rw [samplesOf]
  split_ifs with hnone
  · simp only [hnone, OrdMap.find?_empty, List.map_nil]
    constructor
    · intro h
      cases h
    · rintro ⟨rfl, h⟩
      exact absurd rfl h
  · simp only [OrdMap.find?_empty, Option.getD_none, List.nil_append, Option.some.injEq]
    constructor
    · rintro rfl
      exact ⟨rfl, by simpa using hnone⟩
    · rintro ⟨rfl, -⟩
      rfl

/-- How many samples some groups hold. -/
def sampleTotal (groups : List (GroupKey × List (Sample D))) : ℕ :=
  (groups.map fun group => group.2.length).sum

omit [PythonFloat D] in
theorem sampleTotal_upsertList (read : GroupKey × Sample D) :
    ∀ groups : List (GroupKey × List (Sample D)),
      sampleTotal (OrdMap.upsertList read.1 (fun stored => stored.getD [] ++ [read.2]) groups) =
        sampleTotal groups + 1
  | [] => rfl
  | (key, samples) :: groups => by
      have ih := sampleTotal_upsertList read groups
      simp only [sampleTotal] at ih ⊢
      rw [OrdMap.upsertList]
      split_ifs
      · simp [Nat.add_comm]
      · simp only [List.map_cons, List.sum_cons, Option.getD_some, List.length_append,
          List.length_singleton]
        omega
      · rw [List.map_cons, List.sum_cons, ih, List.map_cons, List.sum_cons]
        omega

omit [PythonFloat D] in
/-- Every row is in one group. -/
theorem sampleTotal_groups (reads : List (GroupKey × Sample D)) (groups : Groups D) :
    sampleTotal (reads.foldl append groups).entries =
      sampleTotal groups.entries + reads.length := by
  induction reads generalizing groups with
  | nil => rfl
  | cons read reads ih =>
    rw [List.foldl_cons, ih, append, OrdMap.upsert, sampleTotal_upsertList, List.length_cons]
    omega

end Groups

/-! ## What is fitted and what is rejected -/

section Fits

variable {D : Type}

def FittedSegment.key (segment : FittedSegment D) : GroupKey :=
  toLex (segment.provider, segment.cropType)

def RejectedSegment.key (segment : RejectedSegment) : GroupKey :=
  toLex (segment.provider, segment.cropType)

variable [PythonFloat D]

/-- Enough samples, of both labels. -/
structure Usable (arguments : Arguments D) (samples : List (Sample D)) : Prop where
  enough : arguments.minimumSamples ≤ samples.length
  negative : 0 ∈ samples.map Sample.label
  positive : 1 ∈ samples.map Sample.label

/-- The fit of some samples. -/
structure FittedSegment.IsFit (segment : FittedSegment D) (arguments : Arguments D)
    (samples : List (Sample D)) : Prop where
  usable : Usable arguments samples
  fitted : fitLogistic samples arguments.probabilityEpsilon =
    .ok (segment.slope, segment.intercept)
  measured : CalibrationFit.metrics samples segment.slope segment.intercept
    arguments.probabilityEpsilon = .ok segment.metrics
  counted : segment.sampleCount = samples.length

/-- The report of some samples that cannot be fitted. -/
structure RejectedSegment.IsRejection (segment : RejectedSegment) (arguments : Arguments D)
    (samples : List (Sample D)) : Prop where
  unusable : ¬ Usable arguments samples
  counted : segment.sampleCount = samples.length
  reason : segment.reason =
    if samples.length < arguments.minimumSamples then "minimum_samples" else "single_class"

omit [PythonFloat D] in
theorem Usable.ne_nil {arguments : Arguments D} {samples : List (Sample D)}
    (h : Usable arguments samples) : samples ≠ [] := by
  rintro rfl
  exact absurd h.negative List.not_mem_nil

theorem sum_eq_count {labels : List ℤ} (h : ∀ label ∈ labels, label = 0 ∨ label = 1) :
    labels.sum = labels.count 1 ∧ labels.length = labels.count 0 + labels.count 1 := by
  induction labels with
  | nil => exact ⟨rfl, rfl⟩
  | cons label labels ih =>
    obtain ⟨hlabel, hlabels⟩ := List.forall_mem_cons.mp h
    obtain ⟨hsum, hlength⟩ := ih hlabels
    rcases hlabel with rfl | rfl
    · refine ⟨by simp [hsum], ?_⟩
      simp [hlength]
      omega
    · refine ⟨by simp [hsum]; omega, ?_⟩
      simp [hlength]
      omega

omit [PythonFloat D] in
/-- The tests of the script are those of both labels. -/
theorem usable_iff {arguments : Arguments D} {samples : List (Sample D)}
    (h : ∀ sample ∈ samples, sample.label = 0 ∨ sample.label = 1) :
    Usable arguments samples ↔ ¬ (samples.length : ℤ) < arguments.minimumSamples ∧
      ¬ ((samples.map Sample.label).sum = 0 ∨
        (samples.map Sample.label).sum = samples.length) := by
  obtain ⟨hsum, hlength⟩ := sum_eq_count (List.forall_mem_map.mpr h)
  have hzero : 0 < (samples.map Sample.label).count 0 ↔ 0 ∈ samples.map Sample.label :=
    List.count_pos_iff
  have hone : 0 < (samples.map Sample.label).count 1 ↔ 1 ∈ samples.map Sample.label :=
    List.count_pos_iff
  rw [List.length_map] at hlength
  constructor
  · rintro ⟨henough, hnegative, hpositive⟩
    have := hzero.mpr hnegative
    have := hone.mpr hpositive
    omega
  · rintro ⟨henough, hmixed⟩
    exact ⟨not_lt.mp henough, hzero.mp (by omega), hone.mp (by omega)⟩

section Group

variable {arguments : Arguments D} {group : GroupKey × List (Sample D)}
  (h : ∀ sample ∈ group.2, sample.label = 0 ∨ sample.label = 1)
include h

theorem fitGroup_of_usable (husable : Usable arguments group.2) :
    fitGroup arguments group = (do
      let fitted ← fitLogistic group.2 arguments.probabilityEpsilon
      let metrics ← CalibrationFit.metrics group.2 fitted.1 fitted.2 arguments.probabilityEpsilon
      return .inl {
        provider := (ofLex group.1).1
        cropType := (ofLex group.1).2
        slope := fitted.1
        intercept := fitted.2
        sampleCount := group.2.length
        metrics }) := by
  obtain ⟨henough, hmixed⟩ := (usable_iff h).mp husable
  exact (if_neg henough).trans (if_neg hmixed)

/-- A group that cannot be fitted is rejected, and for want of samples first. -/
theorem fitGroup_of_not_usable (hunusable : ¬ Usable arguments group.2) :
    fitGroup arguments group = .ok (.inr {
      provider := (ofLex group.1).1
      cropType := (ofLex group.1).2
      sampleCount := group.2.length
      reason := if group.2.length < arguments.minimumSamples then "minimum_samples"
        else "single_class" }) := by
  by_cases hfew : (group.2.length : ℤ) < arguments.minimumSamples
  · rw [if_pos hfew]
    exact if_pos hfew
  · rw [if_neg hfew]
    refine (if_neg hfew).trans (if_pos ?_)
    by_contra hmixed
    exact hunusable ((usable_iff h).mpr ⟨hfew, hmixed⟩)

theorem fitGroup_eq_inl {segment : FittedSegment D} :
    fitGroup arguments group = .ok (.inl segment) ↔
      segment.key = group.1 ∧ segment.IsFit arguments group.2 := by
  by_cases husable : Usable arguments group.2
  · rw [fitGroup_of_usable h husable]
    constructor
    · intro hreturned
      obtain ⟨fitted, hfitted, hreturned⟩ := except_bind_eq_ok.mp hreturned
      obtain ⟨measured, hmeasured, hreturned⟩ := except_bind_eq_ok.mp hreturned
      obtain rfl := Sum.inl.inj (Except.ok.inj hreturned)
      exact ⟨rfl, husable, hfitted, hmeasured, rfl⟩
    · obtain ⟨provider, cropType, slope, intercept, sampleCount, measured⟩ := segment
      rintro ⟨hkey, hfit⟩
      obtain rfl : sampleCount = group.2.length := hfit.counted
      rw [← hkey]
      exact except_bind_eq_ok.mpr ⟨_, hfit.fitted, except_bind_eq_ok.mpr ⟨_, hfit.measured, rfl⟩⟩
  · rw [fitGroup_of_not_usable h husable]
    constructor
    · intro hreturned
      cases hreturned
    · rintro ⟨-, hfit⟩
      exact absurd hfit.usable husable

theorem fitGroup_eq_inr {segment : RejectedSegment} :
    fitGroup arguments group = .ok (.inr segment) ↔
      segment.key = group.1 ∧ segment.IsRejection arguments group.2 := by
  by_cases husable : Usable arguments group.2
  · rw [fitGroup_of_usable h husable]
    constructor
    · intro hreturned
      obtain ⟨fitted, -, hreturned⟩ := except_bind_eq_ok.mp hreturned
      obtain ⟨measured, -, hreturned⟩ := except_bind_eq_ok.mp hreturned
      cases hreturned
    · rintro ⟨-, hrejected⟩
      exact absurd husable hrejected.unusable
  · rw [fitGroup_of_not_usable h husable]
    constructor
    · intro hreturned
      obtain rfl := Sum.inr.inj (Except.ok.inj hreturned)
      exact ⟨rfl, husable, rfl, rfl⟩
    · obtain ⟨provider, cropType, sampleCount, reason⟩ := segment
      rintro ⟨hkey, hrejected⟩
      obtain rfl : sampleCount = group.2.length := hrejected.counted
      obtain rfl := hrejected.reason
      rw [← hkey]
      rfl

end Group

end Fits

/-! ## The payload -/

section Payloads

variable {D : Type}

/-- A document as the script leaves it. -/
structure Payload.Written (payload : Payload D) : Prop where
  modelVersion : payload.modelVersion ≠ []
  datasetVersion : payload.datasetVersion ≠ []
  minimumSamples : 0 < payload.minimumSamples
  segments : payload.segments ≠ []
  providers : ∀ segment ∈ payload.segments, segment.provider ≠ []
  enough : ∀ segment ∈ payload.segments, payload.minimumSamples ≤ segment.sampleCount
  distinct : (payload.segments.map FittedSegment.key).Nodup

variable [PythonFloat D]

/-- What a document that is written satisfies; nothing is said of any other end. -/
def Outcome.Writes (outcome : Outcome D) (post : Payload D → Prop) : Prop :=
  ∀ payload, outcome = .wrote payload → post payload

/-- **A document reports the samples of some rows**: the usable groups by their fits and the others
as rejected, every sample once. -/
structure Payload.Reports (payload : Payload D) (arguments : Arguments D)
    (reads : List (GroupKey × Sample D)) : Prop where
  segments : ∀ segment, segment ∈ payload.segments ↔
    segment.IsFit arguments (samplesOf reads segment.key)
  rejected : ∀ segment, segment ∈ payload.rejectedSegments ↔
    samplesOf reads segment.key ≠ [] ∧ segment.IsRejection arguments (samplesOf reads segment.key)
  fitted : ∀ key, Usable arguments (samplesOf reads key) →
    ∃ segment ∈ payload.segments, segment.key = key
  total : (payload.segments.map FittedSegment.sampleCount).sum +
    (payload.rejectedSegments.map RejectedSegment.sampleCount).sum = reads.length

section Results

variable {arguments : Arguments D} {groups : List (GroupKey × List (Sample D))}
  {results : List (FittedSegment D ⊕ RejectedSegment)}

theorem exists_result (h : groups.mapM (fitGroup arguments) = .ok results)
    {group : GroupKey × List (Sample D)} (hgroup : group ∈ groups) :
    ∃ result ∈ results, fitGroup arguments group = .ok result :=
  forall₂_exists_left (except_mapM_eq_ok_iff.mp h).flip hgroup

theorem mem_results (h : groups.mapM (fitGroup arguments) = .ok results)
    {result : FittedSegment D ⊕ RejectedSegment} :
    result ∈ results ↔ ∃ group ∈ groups, fitGroup arguments group = .ok result := by
  constructor
  · exact forall₂_exists_left (except_mapM_eq_ok_iff.mp h)
  · rintro ⟨group, hgroup, hfit⟩
    obtain ⟨result', hresult, hfit'⟩ := exists_result h hgroup
    obtain rfl := Except.ok.inj (hfit'.symm.trans hfit)
    exact hresult

/-- The samples of the groups are counted once, and the segments are of some of the groups. -/
theorem reported_once (h : groups.mapM (fitGroup arguments) = .ok results)
    (hlabels : ∀ group ∈ groups, ∀ sample ∈ group.2, sample.label = 0 ∨ sample.label = 1) :
    ((results.filterMap Sum.getLeft?).map FittedSegment.sampleCount).sum +
        ((results.filterMap Sum.getRight?).map RejectedSegment.sampleCount).sum =
        sampleTotal groups ∧
      ((results.filterMap Sum.getLeft?).map FittedSegment.key).Sublist (groups.map Prod.fst) := by
  have hall := except_mapM_eq_ok_iff.mp h
  clear h
  induction hall with
  | nil => exact ⟨rfl, .slnil⟩
  | @cons group result groups results hgroup _ ih =>
    obtain ⟨hlabel, hlabels⟩ := List.forall_mem_cons.mp hlabels
    obtain ⟨htotal, hkeys⟩ := ih hlabels
    rw [sampleTotal] at htotal ⊢
    cases result with
    | inl segment =>
      obtain ⟨hkey, hfit⟩ := (fitGroup_eq_inl hlabel).mp hgroup
      simp only [List.filterMap_cons, Sum.getLeft?_inl, Sum.getRight?_inl, List.map_cons,
        List.sum_cons, hkey, hfit.counted]
      exact ⟨by omega, hkeys.cons_cons _⟩
    | inr segment =>
      obtain ⟨hkey, hrejected⟩ := (fitGroup_eq_inr hlabel).mp hgroup
      simp only [List.filterMap_cons, Sum.getLeft?_inr, Sum.getRight?_inr, List.map_cons,
        List.sum_cons, hrejected.counted]
      exact ⟨by omega, hkeys.cons _⟩

section Reported

variable {reads : List (GroupKey × Sample D)}
  (hresults : (reads.foldl append (OrdMap.empty : Groups D)).entries.mapM (fitGroup arguments) =
    .ok results)
  (hlabels : ∀ read ∈ reads, read.2.label = 0 ∨ read.2.label = 1)
include hlabels

omit [PythonFloat D] in
theorem labels_of_groups : ∀ group ∈ (reads.foldl append (OrdMap.empty : Groups D)).entries,
    ∀ sample ∈ group.2, sample.label = 0 ∨ sample.label = 1 := by
  rintro ⟨key, samples⟩ hgroup sample hsample
  obtain ⟨rfl, -⟩ := mem_groups.mp hgroup
  exact hlabels _ (mem_samplesOf.mp hsample)

include hresults

/-- **The segments are the fits** of the groups. -/
theorem mem_segments (segment : FittedSegment D) : segment ∈ results.filterMap Sum.getLeft? ↔
    segment.IsFit arguments (samplesOf reads segment.key) := by
  simp only [List.mem_filterMap, Sum.getLeft?_eq_some_iff, exists_eq_right, mem_results hresults]
  constructor
  · rintro ⟨⟨key, samples⟩, hgroup, hfit⟩
    obtain ⟨rfl, hfit⟩ := (fitGroup_eq_inl (labels_of_groups hlabels _ hgroup)).mp hfit
    obtain ⟨rfl, -⟩ := mem_groups.mp hgroup
    exact hfit
  · intro hfit
    have hgroup := mem_groups.mpr ⟨rfl, hfit.usable.ne_nil⟩
    exact ⟨_, hgroup, (fitGroup_eq_inl (labels_of_groups hlabels _ hgroup)).mpr ⟨rfl, hfit⟩⟩

/-- **The rejected segments are the reports** of groups that have no fit. -/
theorem mem_rejectedSegments (segment : RejectedSegment) :
    segment ∈ results.filterMap Sum.getRight? ↔
      samplesOf reads segment.key ≠ [] ∧
        segment.IsRejection arguments (samplesOf reads segment.key) := by
  simp only [List.mem_filterMap, Sum.getRight?_eq_some_iff, exists_eq_right, mem_results hresults]
  constructor
  · rintro ⟨⟨key, samples⟩, hgroup, hreport⟩
    obtain ⟨rfl, hreport⟩ := (fitGroup_eq_inr (labels_of_groups hlabels _ hgroup)).mp hreport
    obtain ⟨rfl, hsome⟩ := mem_groups.mp hgroup
    exact ⟨hsome, hreport⟩
  · rintro ⟨hsome, hreport⟩
    have hgroup := mem_groups.mpr ⟨rfl, hsome⟩
    exact ⟨_, hgroup, (fitGroup_eq_inr (labels_of_groups hlabels _ hgroup)).mpr ⟨rfl, hreport⟩⟩

theorem exists_segment {key : GroupKey} (husable : Usable arguments (samplesOf reads key)) :
    ∃ segment ∈ results.filterMap Sum.getLeft?, segment.key = key := by
  have hgroup := mem_groups.mpr ⟨rfl, husable.ne_nil⟩
  have hgroupLabels := labels_of_groups hlabels _ hgroup
  obtain ⟨result, hresult, hfit⟩ := exists_result hresults hgroup
  cases result with
  | inl segment =>
    exact ⟨segment, List.mem_filterMap.mpr ⟨_, hresult, rfl⟩,
      ((fitGroup_eq_inl hgroupLabels).mp hfit).1⟩
  | inr segment =>
    exact absurd husable ((fitGroup_eq_inr hgroupLabels).mp hfit).2.unusable

/-- **The document reports the rows**, once each, and its segments have keys of their own. -/
theorem reports_rows {payload : Payload D}
    (hsegments : payload.segments = results.filterMap Sum.getLeft?)
    (hrejected : payload.rejectedSegments = results.filterMap Sum.getRight?) :
    payload.Reports arguments reads ∧ (payload.segments.map FittedSegment.key).Nodup := by
  obtain ⟨htotal, hkeys⟩ := reported_once hresults (labels_of_groups hlabels)
  rw [sampleTotal_groups] at htotal
  constructor
  · constructor
    · exact hsegments ▸ mem_segments hresults hlabels
    · exact hrejected ▸ mem_rejectedSegments hresults hlabels
    · exact hsegments ▸ fun _ => exists_segment hresults hlabels
    · rw [hsegments, hrejected]
      exact htotal.trans (Nat.zero_add _)
  · exact hsegments ▸ hkeys.nodup (OrdMap.nodup_keys _)

end Reported

end Results

theorem buildPayload_eq_ok {arguments : Arguments D} {path : Except PythonError CsvFile}
    {payload : Payload D} (h : buildPayload arguments path = .ok payload) :
    ∃ file reads results, path = .ok file ∧ ReadAs (file.rows.zipIdx 2) reads ∧
      (reads.foldl append (OrdMap.empty : Groups D)).entries.mapM (fitGroup arguments) =
        .ok results ∧
      results.filterMap Sum.getLeft? ≠ [] ∧ payload = {
        modelVersion := arguments.modelVersion
        datasetVersion := arguments.datasetVersion
        minimumSamples := arguments.minimumSamples
        probabilityEpsilon := arguments.probabilityEpsilon
        segments := results.filterMap Sum.getLeft?
        rejectedSegments := results.filterMap Sum.getRight? } := by
  simp only [buildPayload] at h
  obtain ⟨groups, hgroups, h⟩ := except_bind_eq_ok.mp h
  obtain ⟨file, reads, hfile, hreads, rfl⟩ := loadSamples_eq_ok hgroups
  obtain ⟨results, hresults, h⟩ := except_bind_eq_ok.mp h
  split_ifs at h with hnone
  exact ⟨file, reads, results, hfile, hreads, hresults, hnone, (Except.ok.inj h).symm⟩

theorem ne_nil_of_strip {t : Unicode} (h : t.strip ≠ []) : t ≠ [] := by
  rintro rfl
  exact h rfl

theorem main_eq_wrote {arguments : Arguments D} {path : Except PythonError CsvFile}
    {payload : Payload D} (h : main arguments path = .wrote payload) :
    0 < arguments.minimumSamples ∧
      (arguments.modelVersion.strip ≠ [] ∧ arguments.datasetVersion.strip ≠ []) ∧
      buildPayload arguments path = .ok payload := by
  simp only [main] at h
  split_ifs at h with hminimum hepsilon hversions
  refine ⟨not_le.mp hminimum, not_or.mp hversions, ?_⟩
  cases hbuilt : buildPayload arguments path with
  | ok built =>
    rw [hbuilt] at h
    exact congrArg _ (Outcome.wrote.inj h)
  | error error =>
    rw [hbuilt] at h
    cases error <;> cases h

/-- **What the script writes** reports the samples of the rows it read, as a document in order. -/
theorem main_writes (arguments : Arguments D) (path : Except PythonError CsvFile) :
    (main arguments path).Writes fun payload => payload.Written ∧
      ∃ file reads, path = .ok file ∧ ReadAs (file.rows.zipIdx 2) reads ∧
        payload.Reports arguments reads := by
  intro payload h
  obtain ⟨hminimum, ⟨hmodel, hdataset⟩, hbuilt⟩ := main_eq_wrote h
  obtain ⟨file, reads, results, hfile, hreads, hresults, hnonempty, hpayload⟩ :=
    buildPayload_eq_ok hbuilt
  have hread := labels_of_readAs hreads
  obtain ⟨hreports, hdistinct⟩ := reports_rows hresults (fun read h => (hread read h).2)
    (congrArg Payload.segments hpayload) (congrArg Payload.rejectedSegments hpayload)
  subst hpayload
  have hfit (segment) (hsegment : segment ∈ results.filterMap Sum.getLeft?) :
      segment.IsFit arguments (samplesOf reads segment.key) :=
    (hreports.segments segment).mp hsegment
  refine ⟨⟨ne_nil_of_strip hmodel, ne_nil_of_strip hdataset, hminimum, hnonempty,
    fun segment hsegment => ?_, fun segment hsegment => ?_, hdistinct⟩, file, reads, hfile, hreads,
    hreports⟩
  · obtain ⟨sample, hsample⟩ :=
      List.exists_mem_of_ne_nil _ (hfit segment hsegment).usable.ne_nil
    exact (hread _ (mem_samplesOf.mp hsample)).1
  · rw [(hfit segment hsegment).counted]
    exact (hfit segment hsegment).usable.enough

end Payloads

/-! ## The document, read -/

section Loading

variable {D F : Type} [Scalar D] [Scalar F]

/-- A fitted segment, as the engine reads it. -/
def FittedSegment.loaded (lib : CalibrationLibrary D F) (segment : FittedSegment D) :
    LogisticCalibrationSegment F where
  provider := segment.provider.utf8
  cropType := segment.cropType.utf8
  slope := lib.narrow segment.slope
  intercept := lib.narrow segment.intercept
  sampleCount := segment.sampleCount

/-- A payload, as the engine reads it. -/
def Payload.loaded (lib : CalibrationLibrary D F) (payload : Payload D) : LoadedCalibration F where
  modelVersion := payload.modelVersion.utf8
  datasetVersion := payload.datasetVersion.utf8
  config := {
    minimumSamples := payload.minimumSamples.toNat
    probabilityEpsilon := lib.narrow payload.probabilityEpsilon }
  segments := payload.segments.map (FittedSegment.loaded lib)

/-- The numbers of a document survive the narrowing, and no two of its segments share a key. -/
structure Payload.Representable (lib : CalibrationLibrary D F) (payload : Payload D) : Prop where
  finiteEpsilon : Scalar.isFinite (lib.narrow payload.probabilityEpsilon) = true
  positiveEpsilon : ¬ lib.narrow payload.probabilityEpsilon ≤ 0
  epsilonBelowHalf : ¬ Scalar.ofRat (1 / 2) ≤ lib.narrow payload.probabilityEpsilon
  finiteSlope : ∀ segment ∈ payload.segments, Scalar.isFinite (lib.narrow segment.slope) = true
  positiveSlope : ∀ segment ∈ payload.segments, ¬ lib.narrow segment.slope ≤ 0
  finiteIntercept : ∀ segment ∈ payload.segments,
    Scalar.isFinite (lib.narrow segment.intercept) = true
  keys : (payload.segments.map fun segment =>
    LogisticConfidenceCalibrator.key segment.provider.utf8 segment.cropType.utf8).Nodup

section Lookups

omit [Scalar D] [Scalar F]

variable {lib : CalibrationLibrary D F} {members : Members D} {key : String} {T : Type}
  {get : Document D → Except String T} {v : Document D} {result : T}

theorem valueAt_of_lookup (hlookup : members.lookup (ascii key) = some v)
    (hget : get v = .ok result) : valueAt lib members key get = .ok result := by
  rw [valueAt, hlookup]
  exact congrArg wrapped hget

theorem valueOr_of_lookup {fallback : T} (hlookup : members.lookup (ascii key) = some v)
    (hget : get v = .ok result) : valueOr members key get fallback = .ok result := by
  rw [valueOr, hlookup]
  exact congrArg wrapped hget

end Lookups

/-- A count that fits in 64 bits is kept whole. -/
theorem integerDocument_of_lt {n : ℕ} (hn : n < 2 ^ 64) :
    (integerDocument n : Document D) = .unsigned (UInt64.ofNat n) := by
  have hneg : ¬ (n : ℤ) < 0 := by omega
  have hfits : (n : ℤ) < 2 ^ 64 := by exact_mod_cast hn
  rw [integerDocument, if_neg hneg, if_pos hfits, Int.toNat_natCast]

omit [Scalar D] [Scalar F] in
theorem ok_bind {α β : Type} {a : α} {f : α → Except EngineError β} :
    ((Except.ok a : Except EngineError α) >>= f) = f a := rfl

section Read

variable {lib : CalibrationLibrary D F} (hlib : lib.Documented)

include hlib

omit [Scalar F] in
theorem getSize_integerDocument {n : ℕ} (hn : n < 2 ^ 64) :
    lib.getSize (integerDocument n : Document D) = .ok (UInt64.ofNat n) := by
  rw [integerDocument_of_lt hn, hlib.getSize_unsigned]

omit [Scalar F] in
theorem getInt_schemaVersion : lib.getInt (integerDocument 1 : Document D) = .ok 1 := by
  have h := integerDocument_of_lt (D := D) (n := 1) (by decide)
  rw [Nat.cast_one] at h
  rw [h, hlib.getInt_unsigned]
  rfl

theorem parseSegment_members {segment : FittedSegment D} (hcount : segment.sampleCount < 2 ^ 64) :
    parseSegment lib (.object segment.members) = .ok (segment.loaded lib) := by
  have hprovider : valueAt lib segment.members "provider" lib.getString =
      .ok segment.provider.utf8 := valueAt_of_lookup rfl (hlib.getString_string _)
  have hcropType : valueOr segment.members "cropType" lib.getString [] =
      .ok segment.cropType.utf8 := valueOr_of_lookup rfl (hlib.getString_string _)
  have hslope : valueAt lib segment.members "slope" lib.getFloat =
      .ok (lib.narrow segment.slope) := valueAt_of_lookup rfl (hlib.getFloat_floating _)
  have hintercept : valueAt lib segment.members "intercept" lib.getFloat =
      .ok (lib.narrow segment.intercept) := valueAt_of_lookup rfl (hlib.getFloat_floating _)
  have hsampleCount : valueAt lib segment.members "sampleCount" lib.getSize =
      .ok (UInt64.ofNat segment.sampleCount) :=
    valueAt_of_lookup rfl (getSize_integerDocument hlib hcount)
  have hkept : (UInt64.ofNat segment.sampleCount).toNat = segment.sampleCount :=
    UInt64.toNat_ofNat_of_lt' hcount
  simp only [parseSegment]
  rw [hprovider, hcropType, hslope, hintercept, hsampleCount]
  simp only [ok_bind, hkept]
  rfl

/-- **The loader on a document that the script writes** does what the constructor of the
calibrator does. -/
theorem parseCalibration_document {payload : Payload D} (h : payload.Written)
    (hcounts : ∀ segment ∈ payload.segments, segment.sampleCount < 2 ^ 64) :
    parseCalibration lib payload.document =
      (build (payload.loaded lib).config (payload.loaded lib).segments).map
        fun _ => payload.loaded lib := by
  have hfits : payload.minimumSamples < 2 ^ 64 := by
    obtain ⟨segment, hsegment⟩ := List.exists_mem_of_ne_nil _ h.segments
    have henough := h.enough segment hsegment
    have hcount := hcounts segment hsegment
    omega
  have hschema : valueOr payload.members "schemaVersion" lib.getInt 0 = .ok 1 :=
    valueOr_of_lookup rfl (getInt_schemaVersion hlib)
  have hmodelVersion : valueOr payload.members "modelVersion" lib.getString [] =
      .ok payload.modelVersion.utf8 := valueOr_of_lookup rfl (hlib.getString_string _)
  have hdatasetVersion : valueOr payload.members "datasetVersion" lib.getString [] =
      .ok payload.datasetVersion.utf8 := valueOr_of_lookup rfl (hlib.getString_string _)
  have hminimumSamples : valueAt lib payload.members "minimumSamples" lib.getSize =
      .ok (UInt64.ofNat payload.minimumSamples.toNat) := by
    refine valueAt_of_lookup (v := integerDocument payload.minimumSamples) rfl ?_
    rw [← Int.toNat_of_nonneg h.minimumSamples.le, Int.toNat_natCast]
    exact getSize_integerDocument hlib (by omega)
  have hkept : (UInt64.ofNat payload.minimumSamples.toNat).toNat = payload.minimumSamples.toNat :=
    UInt64.toNat_ofNat_of_lt' (show payload.minimumSamples.toNat < 2 ^ 64 by omega)
  have hepsilon : valueAt lib payload.members "probabilityEpsilon" lib.getFloat =
      .ok (lib.narrow payload.probabilityEpsilon) :=
    valueAt_of_lookup rfl (hlib.getFloat_floating _)
  have hitems : valueAt lib payload.members "segments" .ok =
      .ok (.array (payload.segments.map fun segment => .object segment.members)) :=
    valueAt_of_lookup rfl rfl
  have hnonempty : segmentItems
      (.array (payload.segments.map fun segment => .object segment.members) : Document D) =
      .ok (payload.segments.map fun segment => .object segment.members) := by
    cases hs : payload.segments with
    | nil => exact absurd hs h.segments
    | cons segment segments => rfl
  have hparsed : (payload.segments.map fun segment =>
      (.object segment.members : Document D)).mapM (parseSegment lib) =
      .ok (payload.segments.map (FittedSegment.loaded lib)) := by
    rw [except_mapM_eq_ok_iff, List.forall₂_map_left_iff, List.forall₂_map_right_iff,
      List.forall₂_same]
    exact fun segment hsegment => parseSegment_members hlib (hcounts segment hsegment)
  have hversions : (!(payload.modelVersion.utf8.isEmpty || payload.datasetVersion.utf8.isEmpty)) =
      true := by
    simp [h.modelVersion, h.datasetVersion]
  simp only [Payload.document, parseCalibration]
  rw [hschema, hmodelVersion, hdatasetVersion, hminimumSamples, hepsilon, hitems]
  simp only [ok_bind, beq_self_eq_true, require_bind_of_true, hversions, hnonempty, hparsed, hkept]
  change (build (payload.loaded lib).config (payload.loaded lib).segments >>= _) = _
  cases build (payload.loaded lib).config (payload.loaded lib).segments <;> rfl

end Read

omit [Scalar D] in
theorem map_segmentKey_loaded (lib : CalibrationLibrary D F) (payload : Payload D) :
    (payload.loaded lib).segments.map segmentKey = payload.segments.map fun segment =>
      LogisticConfidenceCalibrator.key segment.provider.utf8 segment.cropType.utf8 :=
  List.map_map

omit [Scalar D] in
/-- The constructor takes what is representable. -/
theorem build_loaded_eq_ok {lib : CalibrationLibrary D F} {payload : Payload D}
    (h : payload.Written) {table : OrdMap Text (LogisticCalibrationSegment F)} :
    build (payload.loaded lib).config (payload.loaded lib).segments = .ok table ↔
      payload.Representable lib ∧
        table = (payload.loaded lib).segments.foldl store OrdMap.empty := by
  rw [build_eq_ok, map_segmentKey_loaded]
  refine and_congr_left' ⟨?_, ?_⟩
  · rintro ⟨hconfig, hfit, hnodup⟩
    have hfit := List.forall_mem_map.mp hfit
    exact ⟨hconfig.finite, hconfig.positive, hconfig.belowHalf,
      fun segment hsegment => (hfit segment hsegment).finiteSlope,
      fun segment hsegment => (hfit segment hsegment).positiveSlope,
      fun segment hsegment => (hfit segment hsegment).finiteIntercept, hnodup⟩
  · intro hrepresentable
    have hminimum : payload.minimumSamples.toNat ≠ 0 := by
      have := h.minimumSamples
      omega
    refine ⟨⟨hminimum, hrepresentable.finiteEpsilon, hrepresentable.positiveEpsilon,
      hrepresentable.epsilonBelowHalf⟩, List.forall_mem_map.mpr fun segment hsegment => ?_,
      hrepresentable.keys⟩
    exact ⟨fun hnone => h.providers segment hsegment (Unicode.utf8_eq_nil.mp hnone),
      hrepresentable.finiteSlope segment hsegment, hrepresentable.positiveSlope segment hsegment,
      hrepresentable.finiteIntercept segment hsegment⟩

/-! ## Keys of their own -/

/-- What a key has between a provider and a crop type. -/
def unitSeparator : Char := Char.ofNat 0x1F

theorem separator_notMem_utf8 {t : Unicode} (h : unitSeparator ∉ t) : (0x1F : Byte) ∉ t.utf8 :=
  fun hmem => h (Unicode.mem_of_mem_utf8 (by decide) (by decide) hmem)

theorem takeWhile_append_separator {front back : Text} (h : (0x1F : Byte) ∉ front) :
    (front ++ 0x1F :: back).takeWhile (fun b => b != 0x1F) = front := by
  rw [List.takeWhile_append_of_pos]
  · simp
  · intro b hb
    simpa using ne_of_mem_of_not_mem hb h

theorem key_injective {provider provider' cropType cropType' : Unicode}
    (h : unitSeparator ∉ provider) (h' : unitSeparator ∉ provider')
    (hkey : LogisticConfidenceCalibrator.key provider.utf8 cropType.utf8 =
      LogisticConfidenceCalibrator.key provider'.utf8 cropType'.utf8) :
    provider = provider' ∧ cropType = cropType' := by
  simp only [LogisticConfidenceCalibrator.key, List.append_assoc, List.singleton_append] at hkey
  have hfront := congrArg (List.takeWhile fun b => b != 0x1F) hkey
  have hproviders : provider.utf8 = provider'.utf8 := by
    rwa [takeWhile_append_separator (separator_notMem_utf8 h),
      takeWhile_append_separator (separator_notMem_utf8 h')] at hfront
  rw [hproviders, List.append_cancel_left_eq, List.cons.injEq] at hkey
  exact ⟨Unicode.utf8_injective hproviders, Unicode.utf8_injective hkey.2⟩

omit [Scalar D] in
/-- **Providers without a separator** have keys of their own. -/
theorem nodup_keys_of_notMem {payload : Payload D} (h : payload.Written)
    (hseparator : ∀ segment ∈ payload.segments, unitSeparator ∉ segment.provider) :
    (payload.segments.map fun segment =>
      LogisticConfidenceCalibrator.key segment.provider.utf8 segment.cropType.utf8).Nodup := by
  refine List.Nodup.map_on (fun segment hsegment other hother hkey => ?_)
    (List.Nodup.of_map _ h.distinct)
  obtain ⟨hprovider, hcropType⟩ :=
    key_injective (hseparator segment hsegment) (hseparator other hother) hkey
  exact List.inj_on_of_nodup_map h.distinct hsegment hother
    (congrArg toLex (Prod.ext hprovider hcropType))

/-! ## The file, loaded -/

section File

variable {lib : CalibrationLibrary D F} {openBinary : Text → Option InputFile} {path : Text}
  {input : InputFile} {payload : Payload D}

omit [Scalar D] [Scalar F] in
theorem except_map_eq_ok {ε α β : Type} {x : Except ε α} {f : α → β} {b : β} :
    x.map f = .ok b ↔ ∃ a, x = .ok a ∧ f a = b := by
  cases x <;> simp [Except.map]

theorem load_document (hlib : lib.Documented) (h : payload.Written)
    (hcounts : ∀ segment ∈ payload.segments, segment.sampleCount < 2 ^ 64)
    (hopen : openBinary path = some input) (hgood : input.bad = false) (htext : input.content ≠ [])
    (hparse : lib.parse input.content = .ok payload.document) :
    loadLogisticCalibrationJsonFile lib openBinary path =
      (build (payload.loaded lib).config (payload.loaded lib).segments).map
        fun _ => payload.loaded lib := by
  rw [loadLogisticCalibrationJsonFile, hopen]
  simp only [hgood, Bool.false_eq_true, if_false, loadLogisticCalibrationJson,
    List.isEmpty_eq_false_iff.mpr htext, hparse]
  exact parseCalibration_document hlib h hcounts

theorem load_document_eq_ok (hlib : lib.Documented) (h : payload.Written)
    (hcounts : ∀ segment ∈ payload.segments, segment.sampleCount < 2 ^ 64)
    (hopen : openBinary path = some input) (hgood : input.bad = false) (htext : input.content ≠ [])
    (hparse : lib.parse input.content = .ok payload.document) {loaded : LoadedCalibration F} :
    loadLogisticCalibrationJsonFile lib openBinary path = .ok loaded ↔
      payload.Representable lib ∧ loaded = payload.loaded lib := by
  rw [load_document hlib h hcounts hopen hgood htext hparse]
  constructor
  · intro hloaded
    obtain ⟨table, htable, hloaded⟩ := except_map_eq_ok.mp hloaded
    exact ⟨((build_loaded_eq_ok h).mp htable).1, hloaded.symm⟩
  · rintro ⟨hrepresentable, rfl⟩
    rw [(build_loaded_eq_ok h).mpr ⟨hrepresentable, rfl⟩]
    rfl

omit [Scalar D] [Scalar F] in
theorem attached_of_eq_ok {ε α : Type} {x : Except ε α} {a : α} (h : x = .ok a) :
    attached x = .ok ⟨a, h⟩ := by
  subst h
  rfl

theorem exists_made (hlib : lib.Documented) (h : payload.Written)
    (hcounts : ∀ segment ∈ payload.segments, segment.sampleCount < 2 ^ 64)
    (hopen : openBinary path = some input) (hgood : input.bad = false) (htext : input.content ≠ [])
    (hparse : lib.parse input.content = .ok payload.document)
    (hrepresentable : payload.Representable lib) :
    ∃ calibrator, makeLogisticCalibratorJsonFile lib openBinary path = .ok calibrator := by
  have hbuilt := (build_loaded_eq_ok h).mpr ⟨hrepresentable, rfl⟩
  have hloaded :=
    (load_document_eq_ok hlib h hcounts hopen hgood htext hparse).mpr ⟨hrepresentable, rfl⟩
  have hconstructed : ∃ calibrator,
      construct (payload.loaded lib).config (payload.loaded lib).segments = .ok calibrator := by
    rw [construct, attached_of_eq_ok hbuilt]
    exact ⟨_, rfl⟩
  obtain ⟨calibrator, hcalibrator⟩ := hconstructed
  exact ⟨calibrator, except_bind_eq_ok.mpr ⟨_, hloaded, hcalibrator⟩⟩

/-- The calibrator made of a document finds every segment, with enough samples for it to count. -/
theorem finds_of_made (hlib : lib.Documented) (h : payload.Written)
    (hcounts : ∀ segment ∈ payload.segments, segment.sampleCount < 2 ^ 64)
    (hopen : openBinary path = some input) (hgood : input.bad = false) (htext : input.content ≠ [])
    (hparse : lib.parse input.content = .ok payload.document)
    {calibrator : LogisticConfidenceCalibrator F}
    (hmade : makeLogisticCalibratorJsonFile lib openBinary path = .ok calibrator) :
    calibrator.config = (payload.loaded lib).config ∧ ∀ segment ∈ payload.segments,
      calibrator.findSegment segment.provider.utf8 segment.cropType.utf8 =
          some (segment.loaded lib) ∧
        calibrator.config.minimumSamples ≤ segment.sampleCount := by
  obtain ⟨loaded, hloaded, hmade⟩ := except_bind_eq_ok.mp hmade
  obtain ⟨hrepresentable, rfl⟩ :=
    (load_document_eq_ok hlib h hcounts hopen hgood htext hparse).mp hloaded
  obtain ⟨stored, -, rfl⟩ := except_map_eq_ok.mp hmade
  obtain ⟨-, hstored⟩ := (build_loaded_eq_ok h).mp stored.2
  refine ⟨rfl, fun segment hsegment => ⟨?_, ?_⟩⟩
  · have hnodup : ((payload.loaded lib).segments.map segmentKey).Nodup :=
      map_segmentKey_loaded lib payload ▸ hrepresentable.keys
    have hfound : stored.1.find? (LogisticConfidenceCalibrator.key segment.provider.utf8
        segment.cropType.utf8) = some (segment.loaded lib) := by
      rw [hstored]
      exact find?_foldl_store_of_mem hnodup (List.mem_map_of_mem hsegment) OrdMap.empty
    simp only [findSegment, hfound]
  · have := h.enough segment hsegment
    change payload.minimumSamples.toNat ≤ segment.sampleCount
    omega

/-- **What the script writes, the engine loads** if and only if its numbers survive the narrowing
and no two of its segments share a key; the calibrator then finds every segment, with enough
samples for it to count. -/
theorem loads_written (hlib : lib.Documented) (h : payload.Written)
    (hcounts : ∀ segment ∈ payload.segments, segment.sampleCount < 2 ^ 64)
    (hopen : openBinary path = some input) (hgood : input.bad = false) (htext : input.content ≠ [])
    (hparse : lib.parse input.content = .ok payload.document) :
    (∀ loaded, loadLogisticCalibrationJsonFile lib openBinary path = .ok loaded ↔
      payload.Representable lib ∧ loaded = payload.loaded lib) ∧
    (payload.Representable lib →
      ∃ calibrator, makeLogisticCalibratorJsonFile lib openBinary path = .ok calibrator) ∧
    ∀ calibrator, makeLogisticCalibratorJsonFile lib openBinary path = .ok calibrator →
      calibrator.config = (payload.loaded lib).config ∧ ∀ segment ∈ payload.segments,
        calibrator.findSegment segment.provider.utf8 segment.cropType.utf8 =
            some (segment.loaded lib) ∧
          calibrator.config.minimumSamples ≤ segment.sampleCount :=
  ⟨fun _ => load_document_eq_ok hlib h hcounts hopen hgood htext hparse,
    exists_made hlib h hcounts hopen hgood htext hparse,
    fun _ => finds_of_made hlib h hcounts hopen hgood htext hparse⟩

end File

/-! ## A calibration of one provider -/

/-- Two samples of one provider, fitted. -/
def samplePayload (D : Type) [Scalar D] : Payload D where
  modelVersion := "lprnet-1".toList
  datasetVersion := "plates-1".toList
  minimumSamples := 2
  probabilityEpsilon := Scalar.ofRat (1 / 4)
  segments := [
    { provider := "lprnet".toList
      cropType := "plate".toList
      slope := Scalar.ofRat (3 / 2)
      intercept := Scalar.ofRat (-1 / 2)
      sampleCount := 2
      metrics := { brier := Scalar.ofRat (1 / 4), ece := Scalar.ofRat (1 / 8) } }]
  rejectedSegments := []

/-- The file that the script leaves of it. -/
def sampleText : Text :=
  0x7B :: ascii ("\n  \"schemaVersion\": 1,\n  \"modelVersion\": \"lprnet-1\",\n" ++
    "  \"datasetVersion\": \"plates-1\",\n  \"minimumSamples\": 2,\n" ++
    "  \"probabilityEpsilon\": 0.25,\n  \"segments\": [\n    \x7b\n" ++
    "      \"provider\": \"lprnet\",\n      \"cropType\": \"plate\",\n" ++
    "      \"slope\": 1.5,\n      \"intercept\": -0.5,\n      \"sampleCount\": 2,\n" ++
    "      \"metrics\": \x7b\n        \"brier\": 0.25,\n        \"ece\": 0.125\n" ++
    "      \x7d\n    \x7d\n  ],\n  \"rejectedSegments\": []\n\x7d\n")

/-- A library that knows this text, and converts as it is documented. -/
def sampleLibrary (narrow : D → F) (truncate : D → ℤ) : CalibrationLibrary D F where
  parse text :=
    if text = sampleText then .ok (samplePayload D).document else .error "parse error"
  narrow := narrow
  getInteger
    | .integer value => value
    | .unsigned value => value.toInt64
    | _ => 0
  getFloat
    | .floating value => .ok (narrow value)
    | _ => .error "type must be number"
  getBool
    | .boolean value => .ok value
    | _ => .error "type must be boolean"
  getInt
    | .integer value => .ok value.toInt32
    | .unsigned value => .ok value.toUInt32.toInt32
    | .floating value => .ok (Int32.ofInt (truncate value))
    | _ => .error "type must be number"
  getSize
    | .integer value => .ok value.toUInt64
    | .unsigned value => .ok value
    | .floating value => .ok (UInt64.ofInt (truncate value))
    | _ => .error "type must be number"
  getString
    | .string value => .ok value
    | _ => .error "type must be string"
  outOfRange key := "key '" ++ key ++ "' not found"

omit [Scalar F] in
theorem documented_sampleLibrary (narrow : D → F) (truncate : D → ℤ) :
    (sampleLibrary narrow truncate).Documented where
  getInteger_unsigned _ := rfl
  getFloat_floating _ := rfl
  getBool_boolean _ := rfl
  getInt_unsigned _ := rfl
  getSize_unsigned _ := rfl
  getString_string _ := rfl

/-- A directory with nothing but that file. -/
def sampleFiles (_path : Text) : Option InputFile := some { content := sampleText, bad := false }

omit [Scalar F] in
theorem parse_sampleText (narrow : D → F) (truncate : D → ℤ) :
    (sampleLibrary narrow truncate).parse sampleText = .ok (samplePayload D).document := by
  simp only [sampleLibrary, if_true]

theorem written_samplePayload : (samplePayload D).Written where
  modelVersion := show "lprnet-1".toList ≠ [] by decide
  datasetVersion := show "plates-1".toList ≠ [] by decide
  minimumSamples := show (0 : ℤ) < 2 by decide
  segments := List.cons_ne_nil _ _
  providers := List.forall_mem_singleton.mpr (show "lprnet".toList ≠ [] by decide)
  enough := List.forall_mem_singleton.mpr le_rfl
  distinct := List.nodup_singleton _

theorem counts_samplePayload :
    ∀ segment ∈ (samplePayload D).segments, segment.sampleCount < 2 ^ 64 :=
  List.forall_mem_singleton.mpr (by norm_num)

theorem keys_samplePayload : ((samplePayload D).segments.map fun segment =>
    LogisticConfidenceCalibrator.key segment.provider.utf8 segment.cropType.utf8).Nodup :=
  nodup_keys_of_notMem written_samplePayload
    (List.forall_mem_singleton.mpr (show unitSeparator ∉ "lprnet".toList by decide))

/-- The library of the exact numbers. -/
def exactLibrary : CalibrationLibrary ℚ ℚ := sampleLibrary id Rat.floor

theorem representable_samplePayload : (samplePayload ℚ).Representable exactLibrary where
  finiteEpsilon := rfl
  positiveEpsilon := by decide +kernel
  epsilonBelowHalf := by decide +kernel
  finiteSlope _ _ := rfl
  positiveSlope := List.forall_mem_singleton.mpr (by decide +kernel)
  finiteIntercept _ _ := rfl
  keys := keys_samplePayload

theorem loads_written_samplePayload :
    loadLogisticCalibrationJsonFile exactLibrary sampleFiles (ascii "calibration.json") =
      .ok ((samplePayload ℚ).loaded exactLibrary) := by
  have hopen : sampleFiles (ascii "calibration.json") =
    some { content := sampleText, bad := false } := rfl
  have hloads := loads_written (documented_sampleLibrary id Rat.floor) written_samplePayload
    counts_samplePayload hopen rfl (List.cons_ne_nil _ _) (parse_sampleText id Rat.floor)
  exact (hloads.1 _).mpr ⟨representable_samplePayload, rfl⟩

end Loading

end CalibrationFit

end FacLpr
