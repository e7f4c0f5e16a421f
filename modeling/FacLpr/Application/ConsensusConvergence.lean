import FacLpr.Application.ConsensusWindow
import FacLpr.Foundations.BinaryScalar

/-!
# Application/ConsensusConvergence — past evidence cannot block a new plate

Whatever was observed before, in order or not, `maxHistory` observations push it out of the history
(`suffix_runHistory`), and if the time to live survives its conversion none of those in order and
within it expires (`runHistory_fresh`).  A history of votes for one plate has all the support, so
it is stable once it has the frames (`conclude_of_votesFor`), in exact arithmetic and in `float`.
Where the time to live wraps the last vote can be alone, which is too few unless one frame is
enough (`converges_iff`).
-/

namespace FacLpr

/-- The call that makes an observation. -/
def Observation.call {F D : Type} (o : Observation F D) :
    TemporalPlateConsensus.ConsensusCall F D := .observe o.result o.timestamp

namespace TemporalPlateConsensus

variable {F D : Type}

/-! ## The history -/

/-- **Expiry stops at what is fresh.** -/
theorem expire_append {ttl now : ℤ} (old : List (Observation F D)) {fresh : List (Observation F D)}
    (h : ∀ o ∈ fresh, now - o.timestamp ≤ nanoseconds ttl) :
    ∃ kept, expire ttl now (old ++ fresh) = kept ++ fresh := by
  induction old with
  | nil =>
    refine ⟨[], ?_⟩
    cases fresh with
    | nil => rfl
    | cons oldest rest => exact if_pos (Or.inr (h oldest List.mem_cons_self))
  | cons oldest rest ih =>
    rw [List.cons_append, expire]
    split
    · exact ⟨oldest :: rest, rfl⟩
    · exact ih

/-- Fresh up to the last one: in order, and within the time to live of it. -/
structure Fresh (ttl : ℤ) (now : ℤ) (fresh : List (Observation F D)) : Prop where
  inOrder : InOrder fresh
  recent : ∀ o ∈ fresh, o.timestamp ≤ now ∧ now - o.timestamp ≤ milliseconds ttl

variable [Scalar F]

/-- **A call keeps the fresh observations** and enters the new one after them. -/
theorem observe_append (c : Config F) (old : List (Observation F D))
    {fresh : List (Observation F D)} {new : Observation F D}
    (hlength : fresh.length < c.config.maxHistory)
    (h : ∀ o ∈ fresh, new.timestamp - o.timestamp ≤ nanoseconds c.config.historyTtl) :
    ∃ kept, (observe c (old ++ fresh) new.result new.timestamp).1 = kept ++ (fresh ++ [new]) ∧
      (kept ++ (fresh ++ [new])).length ≤ c.config.maxHistory := by
  obtain ⟨kept, hkept⟩ := expire_append old h
  have hroom : (fresh ++ [new]).length ≤ c.config.maxHistory := by
    rw [List.length_append, List.length_singleton]
    exact hlength
  refine ⟨lastN (c.config.maxHistory - (fresh ++ [new]).length) kept, ?_, ?_⟩
  · change lastN c.config.maxHistory (expire c.config.historyTtl new.timestamp (old ++ fresh) ++
      [new]) = _
    rw [hkept, List.append_assoc, lastN_append hroom]
  · have := length_lastN_le (c.config.maxHistory - (fresh ++ [new]).length) kept
    rw [List.length_append]
    omega

theorem runHistory_concat (c : Config F) (calls : List (ConsensusCall F D)) (o : Observation F D) :
    runHistory c (calls ++ [o.call]) = (observe c (runHistory c calls) o.result o.timestamp).1 :=
  List.foldl_append

/-- **Fresh observations are the end of the history**, after any run. -/
theorem exists_runHistory_eq (c : Config F) (hfits : c.config.historyTtl ≤ longestDuration)
    (calls : List (ConsensusCall F D)) {fresh : List (Observation F D)} {now : ℤ}
    (hlength : fresh.length ≤ c.config.maxHistory) (h : Fresh c.config.historyTtl now fresh) :
    ∃ kept, runHistory c (calls ++ fresh.map Observation.call) = kept ++ fresh ∧
      (fresh ≠ [] → (kept ++ fresh).length ≤ c.config.maxHistory) := by
  induction fresh using List.reverseRecOn with
  | nil => exact ⟨runHistory c calls, by simp, fun h => absurd rfl h⟩
  | append_singleton fresh new ih =>
    rw [List.length_append, List.length_singleton] at hlength
    obtain ⟨hordered, hpast⟩ := h.inOrder.of_concat
    obtain ⟨kept, hkept, -⟩ := ih (Nat.le_of_succ_le hlength)
      ⟨hordered, fun o ho => h.recent o (List.mem_append_left _ ho)⟩
    have hfresh : ∀ o ∈ fresh, new.timestamp - o.timestamp ≤ nanoseconds c.config.historyTtl := by
      intro o ho
      have hexact := nanoseconds_eq c.historyTtl_pos.le hfits
      have hold := (h.recent o (List.mem_append_left _ ho)).2
      have hnew := (h.recent new (List.mem_append_right _ (List.mem_singleton_self new))).1
      omega
    obtain ⟨kept', hobserve, hroom⟩ := observe_append c kept hlength hfresh
    refine ⟨kept', ?_, fun _ => hroom⟩
    rw [List.map_append, List.map_singleton, ← List.append_assoc, runHistory_concat, hkept,
      hobserve]

/-- **As many fresh observations as the history holds are the history**: nothing older is left. -/
theorem runHistory_fresh (c : Config F) (hfits : c.config.historyTtl ≤ longestDuration)
    (calls : List (ConsensusCall F D)) {fresh : List (Observation F D)} {now : ℤ}
    (hlength : fresh.length = c.config.maxHistory) (h : Fresh c.config.historyTtl now fresh) :
    runHistory c (calls ++ fresh.map Observation.call) = fresh := by
  obtain ⟨kept, hkept, hroom⟩ := exists_runHistory_eq c hfits calls hlength.le h
  have hne : fresh ≠ [] := fun hnil => c.maxHistory_ne_zero (by rw [← hlength, hnil]; rfl)
  have hlen := hroom hne
  rw [List.length_append] at hlen
  have hnone : kept = [] := List.length_eq_zero_iff.mp (by omega)
  rw [hkept, hnone, List.nil_append]

/-- **The history of a run is the end of what it observed**, whatever expires. -/
theorem suffix_runHistory (c : Config F) (calls : List (ConsensusCall F D))
    (observed : List (Observation F D)) :
    runHistory c (calls ++ observed.map Observation.call) <:+ runHistory c calls ++ observed := by
  induction observed using List.reverseRecOn with
  | nil => simp
  | append_singleton observed new ih =>
    rw [List.map_append, List.map_singleton, ← List.append_assoc, runHistory_concat,
      ← List.append_assoc]
    have hexpired := expire_suffix c.config.historyTtl new.timestamp
      (runHistory c (calls ++ observed.map Observation.call))
    exact (evict_suffix _ _).trans (List.suffix_append_self_iff.mpr (hexpired.trans ih))

/-- A call leaves at least the new observation and at most `maxHistory` of them. -/
theorem length_observe (c : Config F) (history : List (Observation F D))
    (frameResult : PlateRecognitionResult F D) (timestamp : ℤ) :
    1 ≤ (observe c history frameResult timestamp).1.length ∧
      (observe c history frameResult timestamp).1.length ≤ c.config.maxHistory := by
  have hmax := c.maxHistory_ne_zero
  change 1 ≤ (lastN _ (_ ++ [_])).length ∧ (lastN _ (_ ++ [_])).length ≤ _
  refine ⟨?_, length_lastN_le _ _⟩
  rw [lastN, List.length_drop, List.length_append, List.length_singleton]
  omega

/-! ## A window of votes for one plate -/

/-- What the constructor checked of the thresholds. -/
theorem Config.thresholds (c : Config F) : c.config.maxHistory ≤ 1024 ∧
    c.config.minimumSupportingFrames ≤ c.config.maxHistory ∧
    Scalar.isProbability c.config.minimumFrameConfidence = true ∧
    Scalar.isProbability c.config.stableConfidenceThreshold = true ∧
    Scalar.isProbability c.config.conflictMargin = true := by
  have haccepted := c.accepted
  simp only [TemporalPlateConsensusConfig.check, requireProbability, except_bind_eq_ok,
    require_eq_ok, decide_eq_true_eq] at haccepted
  obtain ⟨-, ⟨-, hmax⟩, -, -, -, ⟨-, hframes⟩, -, hminimum, -, hthreshold, hmargin⟩ := haccepted
  exact ⟨hmax, hframes, hminimum, hthreshold, hmargin⟩

/-- An accepted observation of the plate with a confidence in the configured range. -/
structure IsVoteFor (config : TemporalPlateConsensusConfig F) (plate : Text)
    (o : Observation F D) : Prop where
  status : o.result.status = .accepted
  plate : o.result.plate = plate
  isFinite : Scalar.isFinite o.result.confidence = true
  minimum : config.minimumFrameConfidence ≤ o.result.confidence
  le_one : o.result.confidence ≤ 1

variable [ShareScalar F]

theorem IsVoteFor.isEligible {c : Config F} {plate : Text} (hplate : plate ≠ [])
    {o : Observation F D} (h : IsVoteFor c.config plate o) :
    TemporalPlateConsensus.isEligible c.config o.result = true := by
  obtain ⟨-, -, hminimum, -, -⟩ := c.thresholds
  have hbelow := Scalar.not_lt_of_le (Scalar.isFinite_of_isProbability hminimum) h.isFinite
    h.minimum
  have habove := Scalar.not_lt_of_le h.isFinite UnitScalar.isFinite_one h.le_one
  simp [TemporalPlateConsensus.isEligible, h.status, h.plate, hplate, h.isFinite, hbelow, habove]

/-- Every vote of such a window is for the plate. -/
theorem votes_eq {c : Config F} {plate : Text} (hplate : plate ≠ [])
    {window : List (Observation F D)} (h : ∀ o ∈ window, IsVoteFor c.config plate o) :
    votes c.config window = window.map Observation.result := by
  rw [votes, List.filter_eq_self]
  intro result hresult
  obtain ⟨o, ho, rfl⟩ := List.mem_map.mp hresult
  exact (h o ho).isEligible hplate

/-- The map of such a window has one entry. -/
theorem entries_aggregatesOf {c : Config F} {plate : Text} (hplate : plate ≠ [])
    {window : List (Observation F D)} (hne : window ≠ [])
    (h : ∀ o ∈ window, IsVoteFor c.config plate o) :
    ∃ best, (aggregatesOf c.config window).entries = [(plate,
      ⟨(window.map fun o => o.result.confidence).foldl (· + ·) 0, window.length, some best⟩)] := by
  have hvotes := votes_eq hplate h
  have hfor : votesFor (votes c.config window) plate = window.map Observation.result := by
    rw [votesFor, hvotes, List.filter_eq_self]
    intro result hresult
    obtain ⟨o, ho, rfl⟩ := List.mem_map.mp hresult
    exact beq_iff_eq.mpr (h o ho).plate
  obtain ⟨o, ho⟩ := List.exists_mem_of_ne_nil _ hne
  have hstored := exists_mem_of_vote (hvotes ▸ List.mem_map_of_mem ho)
  rw [(h o ho).plate] at hstored
  obtain ⟨stored, hentries⟩ := OrdMap.entries_eq_singleton hstored fun entry hentry => by
    obtain ⟨best, hbest, -⟩ := aggregate_of_mem hentry
    obtain ⟨hvote, hentryPlate⟩ := mem_votesFor.mp hbest.mem
    rw [hvotes] at hvote
    obtain ⟨o, ho, rfl⟩ := List.mem_map.mp hvote
    rw [← hentryPlate, (h o ho).plate]
  obtain ⟨best, -, hstored⟩ := aggregate_of_mem (hentries ▸ List.mem_singleton_self _)
  simp only [hfor, List.length_map, List.foldl_map] at hstored
  refine ⟨best, ?_⟩
  rw [hentries, hstored, List.foldl_map]

omit [ShareScalar F] in
theorem totalEligibleWeight_eq_foldl (config : TemporalPlateConsensusConfig F)
    (window : List (Observation F D)) : totalEligibleWeight config window =
      (votes config window).foldl (fun sum vote => sum + vote.confidence) 0 := by
  rw [votes, totalEligibleWeight, List.foldl_filter, List.foldl_map]

theorem clamp01_one : Scalar.clamp01 (1 : F) = 1 := by
  have hzero : ¬ (1 : F) < 0 := fun h =>
    LawfulScalar.lt_irrefl _ (LawfulScalar.lt_trans h LawfulScalar.zero_lt_one)
  rw [Scalar.clamp01, Scalar.clamp, if_neg hzero, if_neg (LawfulScalar.lt_irrefl _)]

/-- **A window of enough votes, all for one plate, is stable**: the plate has all the support and no
rival. -/
theorem conclude_of_votesFor (c : Config F) (hminimum : 0 < c.config.minimumFrameConfidence)
    {plate : Text} (hplate : plate ≠ []) {window : List (Observation F D)}
    (hlength : 1 ≤ window.length ∧ window.length ≤ c.config.maxHistory)
    (hframes : c.config.minimumSupportingFrames ≤ window.length)
    (h : ∀ o ∈ window, IsVoteFor c.config plate o) :
    ∃ best, (conclude c.config window).stableResult = some (stableResultOf plate 1 best) := by
  obtain ⟨hmax, -, hprobability, hthreshold, hmargin⟩ := c.thresholds
  have hne : window ≠ [] := List.ne_nil_of_length_pos hlength.1
  obtain ⟨best, hentries⟩ := entries_aggregatesOf hplate hne h
  have hpositive : ∀ x ∈ window.map fun o => o.result.confidence, 0 < x ∧ x ≤ 1 := by
    intro x hx
    obtain ⟨o, ho, rfl⟩ := List.mem_map.mp hx
    have hvote := h o ho
    exact ⟨Scalar.lt_of_lt_of_le UnitScalar.isFinite_zero
      (Scalar.isFinite_of_isProbability hprobability) hvote.isFinite hminimum hvote.minimum,
      hvote.le_one⟩
  obtain ⟨hfinite, hsum⟩ := ShareScalar.sum_pos (window.map fun o => o.result.confidence)
    (by simpa using hne) (by simpa using hlength.2.trans hmax) hpositive
  have htotal : totalEligibleWeight c.config window =
      (window.map fun o => o.result.confidence).foldl (· + ·) 0 := by
    rw [totalEligibleWeight_eq_foldl, votes_eq hplate h, List.foldl_map, List.foldl_map]
  generalize (window.map fun o => o.result.confidence).foldl (· + ·) 0 = total at *
  have hsearch : ∀ entry : Text × Aggregate F D,
      [entry].foldl winnerStep (entry, 0) = (entry, 0) := by
    intro entry
    simp [winnerStep, LawfulScalar.lt_irrefl]
  have hsupport : Scalar.clamp01 (total / total) = 1 := by
    rw [ShareScalar.div_self hfinite hsum, clamp01_one]
  have hrunnerUp : Scalar.clamp01 (0 / total) = 0 := by
    rw [ShareScalar.zero_div hfinite hsum, Scalar.clamp01_zero]
  have hbelow : ¬ (1 : F) < c.config.stableConfidenceThreshold := by
    simp only [Scalar.isProbability, Bool.and_eq_true, Bool.not_eq_true',
      decide_eq_false_iff_not] at hthreshold
    exact hthreshold.2
  have hlead : c.config.conflictMargin ≤ (1 : F) - 0 := by
    have hfiniteMargin := Scalar.isFinite_of_isProbability hmargin
    simp only [Scalar.isProbability, Bool.and_eq_true, Bool.not_eq_true',
      decide_eq_false_iff_not] at hmargin
    rw [ShareScalar.one_sub_zero]
    exact Scalar.le_of_not_lt hfiniteMargin UnitScalar.isFinite_one hmargin.2
  have htotalPositive := Scalar.not_le_of_lt UnitScalar.isFinite_zero hfinite hsum
  have hcount : ¬ window.length < c.config.minimumSupportingFrames := not_lt.mpr hframes
  refine ⟨best, ?_⟩
  simp only [conclude, hentries, htotal, if_neg htotalPositive, hsearch, hsupport, hrunnerUp]
  rw [if_neg (by simp [hcount, hbelow, hlead])]
  rfl

/-! ## Convergence -/

/-- As many observations as the history holds, all of one plate, in order and within the time to
live of the last. -/
structure NewPlate (config : TemporalPlateConsensusConfig F) (plate : Text)
    (fresh : List (Observation F D)) (last : Observation F D) : Prop where
  nonempty : plate ≠ []
  length : (fresh ++ [last]).length = config.maxHistory
  votes : ∀ o ∈ fresh ++ [last], IsVoteFor config plate o
  inOrder : InOrder (fresh ++ [last])
  recent : ∀ o ∈ fresh ++ [last], last.timestamp - o.timestamp ≤ milliseconds config.historyTtl

omit [ShareScalar F] in
theorem NewPlate.fresh {config : TemporalPlateConsensusConfig F} {plate : Text}
    {fresh : List (Observation F D)} {last : Observation F D}
    (h : NewPlate config plate fresh last) :
    Fresh config.historyTtl last.timestamp (fresh ++ [last]) := by
  refine ⟨h.inOrder, fun o ho => ⟨?_, h.recent o ho⟩⟩
  rcases List.mem_append.mp ho with ho | ho
  · exact h.inOrder.of_concat.2 o ho
  · exact (congrArg Observation.timestamp (List.mem_singleton.mp ho)).le

/-- The plate is stable after the run and the observations. -/
def Settles (c : Config F) (calls : List (ConsensusCall F D)) (plate : Text)
    (fresh : List (Observation F D)) (last : Observation F D) : Prop :=
  ∃ stable, (observe c (runHistory c (calls ++ fresh.map Observation.call)) last.result
      last.timestamp).2.stableResult = some stable ∧
    stable.plate = plate ∧ stable.confidence = 1

/-- **The history after them has nothing else**, and with an exact time to live all of them. -/
theorem settles_of_frames (c : Config F) (hminimum : 0 < c.config.minimumFrameConfidence)
    (calls : List (ConsensusCall F D)) {plate : Text} {fresh : List (Observation F D)}
    {last : Observation F D} (h : NewPlate c.config plate fresh last)
    (hframes : c.config.minimumSupportingFrames ≤ (observe c
      (runHistory c (calls ++ fresh.map Observation.call)) last.result last.timestamp).1.length) :
    Settles c calls plate fresh last := by
  have hsuffix := suffix_runHistory c calls (fresh ++ [last])
  have hlength := length_observe c (runHistory c (calls ++ fresh.map Observation.call)) last.result
    last.timestamp
  rw [List.map_append, List.map_singleton, ← List.append_assoc, runHistory_concat] at hsuffix
  have honly := List.suffix_of_suffix_length_le hsuffix (List.suffix_append _ _)
    (hlength.2.trans h.length.ge)
  obtain ⟨best, hstable⟩ := conclude_of_votesFor c hminimum h.nonempty hlength hframes
    fun o ho => h.votes o (honly.mem ho)
  exact ⟨stableResultOf plate 1 best, by rw [observe_snd]; exact hstable, rfl, rfl⟩

/-- A certain observation of a plate. -/
def certainVote (F D : Type) [Scalar F] [Zero D] (plate : Text) : PlateRecognitionResult F D :=
  { PlateRecognitionResult.default with status := .accepted, plate, confidence := 1 }

theorem isVoteFor_certainVote [Zero D] (c : Config F) (plate : Text) (timestamp : ℤ) :
    IsVoteFor c.config plate ⟨certainVote F D plate, timestamp⟩ := by
  obtain ⟨-, -, hminimum, -, -⟩ := c.thresholds
  have hfinite := Scalar.isFinite_of_isProbability hminimum
  simp only [Scalar.isProbability, Bool.and_eq_true, Bool.not_eq_true',
    decide_eq_false_iff_not] at hminimum
  exact ⟨rfl, rfl, UnitScalar.isFinite_one,
    Scalar.le_of_not_lt hfinite UnitScalar.isFinite_one hminimum.2,
    Scalar.le_of_not_lt UnitScalar.isFinite_one UnitScalar.isFinite_one
      (LawfulScalar.lt_irrefl _)⟩

/-- Votes at time zero, and the last one when a wrapped time to live has forgotten them. -/
theorem newPlate_tooLate [Zero D] (c : Config F) (hwraps : longestDuration < c.config.historyTtl)
    {plate : Text} (hplate : plate ≠ []) :
    NewPlate c.config plate
      (List.replicate (c.config.maxHistory - 1) ⟨certainVote F D plate, 0⟩)
      ⟨certainVote F D plate, tooLate c.config.historyTtl⟩ := by
  have hlate := tooLate_le c.historyTtl_pos hwraps
  have hnonneg : 0 ≤ tooLate c.config.historyTtl := le_max_left _ _
  have hmax := c.maxHistory_ne_zero
  have htimes : ∀ o ∈ List.replicate (c.config.maxHistory - 1)
      (Observation.mk (certainVote F D plate) 0) ++
        [⟨certainVote F D plate, tooLate c.config.historyTtl⟩],
      o = ⟨certainVote F D plate, 0⟩ ∨
        o = ⟨certainVote F D plate, tooLate c.config.historyTtl⟩ := by
    intro o ho
    rcases List.mem_append.mp ho with ho | ho
    · exact Or.inl (List.eq_of_mem_replicate ho)
    · exact Or.inr (List.mem_singleton.mp ho)
  refine ⟨hplate, ?_, fun o ho => ?_, ?_, fun o ho => ?_⟩
  · rw [List.length_append, List.length_replicate, List.length_singleton]
    omega
  · rcases htimes o ho with rfl | rfl <;> exact isVoteFor_certainVote c plate _
  · refine List.pairwise_append.mpr ⟨List.pairwise_replicate.mpr (Or.inr le_rfl),
      List.pairwise_singleton _ _, fun o ho o' ho' => ?_⟩
    rw [List.eq_of_mem_replicate ho, List.mem_singleton.mp ho']
    exact hnonneg
  · rcases htimes o ho with rfl | rfl
    · simpa using hlate
    · simpa using hnonneg.trans hlate

omit [ShareScalar F] in
/-- **A vote alone is too few** where a stable result needs two. -/
theorem not_settles_tooLate [Zero D] (c : Config F)
    (hmany : 2 ≤ c.config.minimumSupportingFrames) (plate : Text) :
    ¬ Settles c [] plate
      (List.replicate (c.config.maxHistory - 1) ⟨certainVote F D plate, 0⟩)
      ⟨certainVote F D plate, tooLate c.config.historyTtl⟩ := by
  rintro ⟨stable, hstable, -, -⟩
  have hold := suffix_runHistory c [] (List.replicate (c.config.maxHistory - 1)
    (Observation.mk (certainVote F D plate) 0))
  have hzero : ∀ o ∈ runHistory c ([] ++ (List.replicate (c.config.maxHistory - 1)
      (Observation.mk (certainVote F D plate) 0)).map Observation.call),
      o.timestamp = 0 := fun o ho => by
    rw [List.eq_of_mem_replicate (hold.mem ho)]
  rw [observe_snd, observe_tooLate c hzero] at hstable
  obtain ⟨plate', hframes, hneeds⟩ := conclude_spec c.config
    [Observation.mk (certainVote F D plate) (tooLate c.config.historyTtl)]
  have hcount := hframes.trans List.countP_le_length
  have henough := (hneeds stable hstable).2
  rw [List.length_singleton] at hcount
  omega

/-- **When the consensus converges.**  Over all runs, as many accepted observations of one plate as
the history holds, in order, within the time to live of the last and with confidences in the
configured range, make the plate stable, if and only if the nanoseconds of the time to live fit in
64 bits or one frame is enough. -/
theorem converges_iff [Zero D] (c : Config F) (hminimum : 0 < c.config.minimumFrameConfidence) :
    (∀ (calls : List (ConsensusCall F D)) (plate : Text) (fresh : List (Observation F D))
      (last : Observation F D), NewPlate c.config plate fresh last →
        Settles c calls plate fresh last) ↔
    (c.config.historyTtl ≤ longestDuration ∨ c.config.minimumSupportingFrames = 1) := by
  constructor
  · intro hconverges
    by_contra hnot
    obtain ⟨hwraps, hmany⟩ := not_or.mp hnot
    have hneeded := c.minimumSupportingFrames_ne_zero
    exact not_settles_tooLate c (by omega) (ascii "34ABC123")
      (hconverges _ _ _ _ (newPlate_tooLate c (not_le.mp hwraps) (by decide)))
  · intro hcondition calls plate fresh last h
    refine settles_of_frames c hminimum calls h ?_
    rcases hcondition with hfits | hone
    · have hhistory := runHistory_fresh c hfits calls h.length h.fresh
      rw [List.map_append, List.map_singleton, ← List.append_assoc, runHistory_concat] at hhistory
      rw [hhistory, h.length]
      exact c.thresholds.2.1
    · exact hone ▸ (length_observe c _ last.result last.timestamp).1

/-- Two frames outlast a vote of another plate from the future. -/
theorem converges_afterFuture : ∃ stable,
    (observe ⟨{ maxHistory := 2 }, by decide +kernel⟩
      (runHistory ⟨{ maxHistory := 2 }, by decide +kernel⟩
        ([.observe { acceptedFrame 1 false with plate := ascii "06XYZ99" } 9000000000] ++
          [Observation.mk (acceptedFrame (9 / 10) true) 0].map Observation.call))
      (acceptedFrame (1 / 2) false) 1500000000).2.stableResult = some stable ∧
    stable.plate = ascii "34ABC123" ∧ stable.confidence = 1 := by
  have hvotes : ∀ o ∈ [Observation.mk (acceptedFrame (9 / 10) true) 0] ++
      [Observation.mk (acceptedFrame (1 / 2) false) 1500000000],
      IsVoteFor { maxHistory := 2 } (ascii "34ABC123") o := by
    intro o ho
    simp only [List.cons_append, List.nil_append, List.mem_cons, List.not_mem_nil, or_false] at ho
    rcases ho with rfl | rfl
    · exact ⟨rfl, rfl, rfl, by decide +kernel, by decide +kernel⟩
    · exact ⟨rfl, rfl, rfl, by decide +kernel, by decide +kernel⟩
  have hnew : NewPlate { maxHistory := 2 } (ascii "34ABC123")
      [Observation.mk (acceptedFrame (9 / 10) true) 0]
      (Observation.mk (acceptedFrame (1 / 2) false) 1500000000) :=
    ⟨by decide, rfl, hvotes, by simp [InOrder], by decide⟩
  exact (converges_iff ⟨{ maxHistory := 2 }, by decide +kernel⟩ (by decide +kernel)).mpr
    (.inl (by decide)) _ _ _ _ hnew

/-- Eight certain frames of one plate at one time: only the last of them is left. -/
theorem not_converges : ¬ ∀ (c : Config ℚ), 0 < c.config.minimumFrameConfidence →
    ∀ (calls : List (ConsensusCall ℚ ℚ)) (plate : Text) (fresh : List (Observation ℚ ℚ))
      (last : Observation ℚ ℚ), NewPlate c.config plate fresh last →
        Settles c calls plate fresh last := by
  intro hclaim
  have hnew : NewPlate overlongConfig.config (ascii "34ABC123")
      (List.replicate 7 ⟨certainVote ℚ ℚ (ascii "34ABC123"), 0⟩)
      ⟨certainVote ℚ ℚ (ascii "34ABC123"), tooLate overlongConfig.config.historyTtl⟩ :=
    newPlate_tooLate overlongConfig (by decide) (by decide)
  exact not_settles_tooLate overlongConfig (by decide) (ascii "34ABC123")
    (hclaim overlongConfig (by decide +kernel) [] _ _ _ hnew)

end TemporalPlateConsensus

end FacLpr
