import FacLpr.Foundations.CtcAlignments
import FacLpr.Infrastructure.Lprnet.ConstrainedCtcBeamSearch
import Mathlib.Algebra.Order.Ring.NNRat

/-!
# Infrastructure/Lprnet/BeamExactness — the beam search against the sum over alignments

In exact arithmetic (`ℚ≥0` weights) one timestep of the search is the pruned step of a CTC alphabet
(`coeff_mergeRow`), so the library's two facts about weighted paths apply: cutting the beam never
over-counts, and an uncut beam over all classes is exact on every plate, since the prefix oracle
never drops what can still become one.
-/

namespace FacLpr

open Weighted

/-! ## The letters of the grammar are left alone by normalization -/

namespace TurkishPlateGrammar

variable {g : TurkishPlateGrammar}

/-- Normalization leaves digits and capitals alone. -/
theorem normalize_singleton {c : Byte} (h : isAsciiDigit c = true ∨ g.isAllowedLetter c = true) :
    g.normalize [c] = [c] := by
  have hrange : ∀ n < 256, (byte '0' ≤ UInt8.ofNat n ∧ UInt8.ofNat n ≤ byte '9') ∨
      (byte 'A' ≤ UInt8.ofNat n ∧ UInt8.ofNat n ≤ byte 'Z') →
        ¬ 128 ≤ UInt8.ofNat n ∧ isAsciiSpace (UInt8.ofNat n) = false ∧
          (UInt8.ofNat n == byte '-') = false ∧ asciiUpper (UInt8.ofNat n) = UInt8.ofNat n := by
    decide +kernel
  have hc : (byte '0' ≤ c ∧ c ≤ byte '9') ∨ (byte 'A' ≤ c ∧ c ≤ byte 'Z') := by
    refine h.imp (fun hd => ?_) isAllowedLetter_bounds
    simpa only [isAsciiDigit, decide_eq_true_eq] using hd
  have hn := hrange c.toNat c.toNat_lt
  rw [UInt8.ofNat_toNat] at hn
  obtain ⟨hascii, hspace, hhyphen, hupper⟩ := hn hc
  have hpos := maximumInputLength_pos (g := g)
  rw [normalize, if_neg (by simp only [List.length_singleton]; omega), normalizeBytes,
    if_neg hascii, hspace, hhyphen, hupper]
  simp [normalizeBytes]

/-- The characters of a plate are left alone by normalization. -/
theorem normalize_of_mem_plate {p : Text} (h : g.isValidNormalized p = true) :
    ∀ c ∈ p, g.normalize [c] = [c] := by
  have hprefix := isValidPrefixNormalized_of_isValidNormalized h
  match p, h, hprefix with
  | [], _, _ => simp
  | [_], h, _ => simp [isValidNormalized] at h
  | d₀ :: d₁ :: rest, _, hprefix =>
    obtain ⟨⟨hd₀, hd₁, -, -⟩, hbody⟩ := isValidPrefixNormalized_iff.mp hprefix
    intro c hc
    rcases List.mem_cons.mp hc with rfl | hc
    · exact normalize_singleton (Or.inl hd₀)
    rcases List.mem_cons.mp hc with rfl | hc
    · exact normalize_singleton (Or.inl hd₁)
    rcases hbody with rfl | ⟨letters, digits, rfl, hl, hd, -⟩
    · cases hc
    · exact normalize_singleton ((List.mem_append.mp hc).symm.imp (hd c) (hl c))

end TurkishPlateGrammar

namespace ConstrainedCtcBeamSearch

variable {F : Type} [Scalar F] {b : ConstrainedCtcBeamSearch F}

theorem ctc_accepted : b.config.ctc.check = .ok () :=
  (except_bind_eq_ok.mp b.accepted).elim fun _ h => h.1

/-- The `append_if_valid` calls on a list of readings are the valid ones of them. -/
theorem flatMap_appendIfValid (text : Text) (classIndex : ℕ) (nextWeight : ℚ≥0)
    (l : List (Byte × ℚ≥0)) :
    (l.flatMap fun e => b.appendIfValid text classIndex nextWeight e.1 e.2) =
      ((l.map fun e => ([e.1], e.2)).filter fun e =>
        e.1.isEmpty || b.grammar.isValidPrefix (text ++ e.1)).map fun e =>
          (toLex (text ++ e.1, classIndex), nextWeight * e.2) := by
  induction l with
  | nil => rfl
  | cons e l ih =>
    rw [List.flatMap_cons, ih, List.map_cons, List.filter_cons, appendIfValid]
    by_cases h : b.grammar.isValidPrefix (text ++ [e.1]) = true <;> simp [h]

/-! ## The selected classes -/

theorem nodup_selectClasses (weights : List ℚ≥0) (count blankIndex : ℕ) :
    (selectClasses weights count blankIndex).Nodup := by
  have htake : ((stableSort (classLess weights) (List.range weights.length)).take count).Nodup :=
    ((stableSort_perm _ _).nodup_iff.mpr List.nodup_range).sublist (List.take_sublist _ _)
  rw [selectClasses]
  split
  · exact htake
  · rename_i hnot
    exact htake.append (List.nodup_singleton _) (by simpa using hnot)

theorem mem_selectClasses_lt {weights : List ℚ≥0} {count blankIndex c : ℕ}
    (hblank : blankIndex < weights.length) (h : c ∈ selectClasses weights count blankIndex) :
    c < weights.length := by
  have htake : ∀ c ∈ (stableSort (classLess weights) (List.range weights.length)).take count,
      c < weights.length := fun c hc =>
    List.mem_range.mp (mem_stableSort.mp (List.mem_of_mem_take hc))
  rw [selectClasses] at h
  split at h
  · exact htake c h
  · rcases List.mem_append.mp h with h | h
    · exact htake c h
    · rw [List.mem_singleton.mp h]
      exact hblank

/-- The selected classes are some of the classes. -/
theorem selectClasses_subperm {weights : List ℚ≥0} {count blankIndex : ℕ}
    (hblank : blankIndex < weights.length) :
    (selectClasses weights count blankIndex).Subperm (List.range weights.length) :=
  (nodup_selectClasses weights count blankIndex).subperm fun _ hc =>
    List.mem_range.mpr (mem_selectClasses_lt hblank hc)

/-- With room for all of them they are all the classes. -/
theorem selectClasses_perm {weights : List ℚ≥0} {count blankIndex : ℕ}
    (hblank : blankIndex < weights.length) (hcount : weights.length ≤ count) :
    (selectClasses weights count blankIndex).Perm (List.range weights.length) := by
  have hperm : (stableSort (classLess weights) (List.range weights.length)).Perm
      (List.range weights.length) := stableSort_perm _ _
  have htake : (stableSort (classLess weights) (List.range weights.length)).take count =
      stableSort (classLess weights) (List.range weights.length) :=
    List.take_of_length_le (by simpa using hcount)
  rw [selectClasses, htake, if_pos (by simpa using hblank)]
  exact hperm

/-! ## The confusion pairs -/

/-- The characters a confusion pair replaces a character by. -/
def confusionsOf (character : Byte) (pair : Byte × Byte) : List Byte :=
  if character = pair.1 then [pair.2] else if character = pair.2 then [pair.1] else []

/-- A confusion pair offers its other character when that is in the charset. -/
theorem confusions_eq (character : Byte) (penalty : ℚ≥0) (pairs : List (Byte × Byte)) :
    (pairs.flatMap fun pair =>
      if alternativeOf character pair ≠ 0 ∧
          charsetContains b.config.ctc (alternativeOf character pair) then
        [(alternativeOf character pair, penalty)] else []) =
      ((pairs.flatMap (confusionsOf character)).filter (· ∈ b.config.ctc.charset)).map
        fun other => (other, penalty) := by
  have hzero : 0 ∉ b.config.ctc.charset :=
    GreedyCtcDecoderConfig.zero_notMem_charset ctc_accepted
  have hne : ∀ c ∈ b.config.ctc.charset, c ≠ 0 := fun c hc h0 => hzero (h0 ▸ hc)
  induction pairs with
  | nil => rfl
  | cons pair pairs ih =>
    rw [List.flatMap_cons, ih, List.flatMap_cons, List.filter_append, List.map_append]
    congr 1
    simp only [alternativeOf, confusionsOf, charsetContains]
    split
    · by_cases hmem : pair.2 ∈ b.config.ctc.charset
      · simp [hmem, hne _ hmem]
      · simp [hmem]
    · split
      · by_cases hmem : pair.1 ∈ b.config.ctc.charset
        · simp [hmem, hne _ hmem]
        · simp [hmem]
      · simp

/-! ## The cut -/

theorem beamWidth_pos : 0 < b.config.beamWidth := by
  obtain ⟨_, -, h⟩ := except_bind_eq_ok.mp b.accepted
  obtain ⟨_, h, -⟩ := except_bind_eq_ok.mp h
  have := require_eq_ok.mp h
  simp only [decide_eq_true_eq] at this
  omega

/-- Cutting the beam drops weight. -/
theorem coeff_cutBeam_le (merged : OrdMap BeamKey ℚ≥0) (k : BeamKey) :
    coeff (b.cutBeam merged) k ≤ coeff merged.entries k :=
  coeff_le_of_subperm ((List.take_sublist _ _).subperm.trans (stableSort_perm _ _).subperm) k

/-- A beam that is not cut is the merged map. -/
theorem cutBeam_perm {merged : OrdMap BeamKey ℚ≥0} (h : merged.size ≤ b.config.beamWidth) :
    (b.cutBeam merged).Perm merged.entries := by
  rw [cutBeam, List.take_of_length_le (by rw [length_stableSort]; exact h)]
  exact stableSort_perm _ _

/-! ## The final scores -/

/-- A plate is scored by the states that end in it. -/
theorem getD_finalScores (beam : List (BeamState ℚ≥0)) {text : Text}
    (hvalid : b.grammar.isValidNormalized text = true) :
    ((b.finalScores beam).find? text).getD 0 =
      pairing beam fun k => if (ofLex k).1 = text then 1 else 0 := by
  rw [finalScores, getD_foldl_accumulate, OrdMap.find?_empty, Option.getD_none, zero_add,
    ← coeff_map_keys, coeff_map_filter]
  · rfl
  · rintro st - rfl
    exact hvalid

/-- The scored texts are the plates some state ends in. -/
theorem isSome_finalScores (beam : List (BeamState ℚ≥0)) (text : Text) :
    ((b.finalScores beam).find? text).isSome ↔
      b.grammar.isValidNormalized text = true ∧ ∃ k ∈ keys beam, (ofLex k).1 = text := by
  rw [finalScores, isSome_foldl_accumulate, OrdMap.find?_empty]
  simp only [Option.isSome_none, Bool.false_eq_true, false_or, keys, List.map_map, List.mem_map,
    List.mem_filter]
  constructor
  · rintro ⟨st, ⟨hst, hvalid⟩, rfl⟩
    exact ⟨hvalid, st.1, ⟨st, hst, rfl⟩, rfl⟩
  · rintro ⟨hvalid, -, ⟨st, hst, rfl⟩, rfl⟩
    exact ⟨st, ⟨hst, hvalid⟩, rfl⟩

/-! ## What is relevant to a plate -/

/-- What is relevant to a plate: a text over characters normalization leaves alone, that the prefix
oracle accepts. -/
def Relevant (b : ConstrainedCtcBeamSearch F) (k : BeamKey) : Prop :=
  (∀ c ∈ (ofLex k).1, b.grammar.normalize [c] = [c]) ∧ b.grammar.isValidPrefix (ofLex k).1 = true

/-- Every state that ends in a plate is relevant. -/
theorem Relevant.of_plate (hmax : 8 ≤ b.grammar.config.maximumInputLength) {k : BeamKey}
    (h : b.grammar.isValidNormalized (ofLex k).1 = true) : b.Relevant k :=
  have hstable := TurkishPlateGrammar.normalize_of_mem_plate h
  ⟨hstable, TurkishPlateGrammar.isValidPrefix_of_isValidNormalized hstable hmax h⟩

variable [CtcArithmetic F ℚ≥0]

section

variable (b)

/-! ## What the search should compute -/

/-- The character a class other than the blank stands for. -/
def characterOf (classIndex : ℕ) : Byte :=
  (b.config.ctc.charset[b.config.ctc.charsetIndex classIndex]?).getD 0

/-- What an emitted class may be read as: its own character with weight one, or through a matching
confusion pair the other character, if it is in the charset, with the confusion weight. -/
def readings (classIndex : ℕ) : List (Byte × ℚ≥0) :=
  (b.characterOf classIndex, 1) ::
    ((b.config.confusionPairs.flatMap (confusionsOf (b.characterOf classIndex))).filter
      (· ∈ b.config.ctc.charset)).map fun other =>
        (other, CtcArithmetic.ofFloat b.config.confusionWeight)

/-- The alphabet the logits are read with. -/
def alphabet : CtcAlphabet Byte ℚ≥0 where
  blank := b.config.ctc.blankIndex
  classes := b.config.ctc.charset.length + 1
  emissions := b.readings

/-- The softmax weight of a class at a timestep. -/
def rowWeight (logits : List F) (classes timestep classIndex : ℕ) : ℚ≥0 :=
  match logSoftmax ℚ≥0 (logitsRow logits classes timestep) with
  | .ok weights => weights.getD classIndex 0
  | .error _ => 0

/-- **The sum a text should be scored by**: over all class sequences and all readings of their
emissions that spell it, the product of the weights. -/
def alignmentMass (logits : List F) (timesteps classes : ℕ) (text : Text) : ℚ≥0 :=
  b.alphabet.mass (rowWeight logits classes) timesteps text

/-- No timestep has more merged hypotheses than the beam holds. -/
def untruncated (classes : ℕ) : List (List F) → List (BeamState ℚ≥0) → Bool
  | [], _ => true
  | row :: rows, beam =>
      match b.mergeRow row classes beam with
      | .ok merged => merged.size ≤ b.config.beamWidth &&
          untruncated classes rows (b.cutBeam merged)
      | .error _ => true

end

/-! ## One timestep -/

theorem length_of_logSoftmax {row : List F} {weights : List ℚ≥0}
    (h : logSoftmax ℚ≥0 row = .ok weights) : weights.length = row.length := by
  obtain ⟨maximum, -, h⟩ := except_bind_eq_ok.mp h
  cases maximum with
  | none => cases h
  | some maximum =>
    obtain ⟨_, -, h⟩ := except_bind_eq_ok.mp h
    rw [← Except.ok.inj h, List.length_map]

/-- **The `merge_state` calls for a state and a class** are the readings of what the class emits
after it, less the words the prefix oracle rejects. -/
theorem expandClass_eq (weights : List ℚ≥0) (st : BeamState ℚ≥0) {c : ℕ}
    (hc : c < b.alphabet.classes) :
    b.expandClass weights st c =
      .ok (((b.alphabet.spellings (kept b.alphabet.blank st.lastClass c)).filter fun e =>
        e.1.isEmpty || b.grammar.isValidPrefix (st.text ++ e.1)).map fun e =>
          (toLex (st.text ++ e.1, c), st.weight * weights.getD c 0 * e.2)) := by
  have hnil : b.alphabet.spellings [] = [([], 1)] := rfl
  have hblankIndex : b.alphabet.blank = b.config.ctc.blankIndex := rfl
  rw [expandClass, hblankIndex]
  by_cases hblank : c = b.config.ctc.blankIndex
  · rw [if_pos hblank, kept, if_pos (Or.inl hblank), hnil, hblank]
    simp
  · by_cases hlast : c = st.lastClass
    · rw [if_neg hblank, if_pos hlast, kept, if_pos (Or.inr hlast), hnil]
      simp
    · have hcharacter : b.config.ctc.classToCharacter
          (internalError "blank class cannot map to a character")
          (inferenceError "beam class index is outside charset") c = .ok (b.characterOf c) :=
        GreedyCtcDecoderConfig.classToCharacter_eq_ok ctc_accepted _ _ hblank hc
      rw [if_neg hblank, if_neg hlast, kept, if_neg (not_or.mpr ⟨hblank, hlast⟩), hcharacter,
        CtcAlphabet.spellings_singleton, ← flatMap_appendIfValid]
      have hreadings : b.alphabet.emissions c = (b.characterOf c, 1) ::
          b.config.confusionPairs.flatMap fun pair =>
            if alternativeOf (b.characterOf c) pair ≠ 0 ∧
                charsetContains b.config.ctc (alternativeOf (b.characterOf c) pair) then
              [(alternativeOf (b.characterOf c) pair,
                CtcArithmetic.ofFloat b.config.confusionWeight)] else [] := by
        rw [confusions_eq]
        rfl
      rw [hreadings, List.flatMap_cons, List.flatMap_assoc]
      refine congrArg (fun l => Except.ok (_ ++ l)) (List.flatMap_congr fun pair _ => ?_)
      by_cases h : alternativeOf (b.characterOf c) pair ≠ 0 ∧
          charsetContains b.config.ctc (alternativeOf (b.characterOf c) pair) = true
      · rw [if_pos h, if_pos h, List.flatMap_cons, List.flatMap_nil, List.append_nil]
      · rw [if_neg h, if_neg h, List.flatMap_nil]

/-- One timestep, as a step of the pruned prefix search. -/
def searchStep (b : ConstrainedCtcBeamSearch F) (weights : List ℚ≥0) :
    BeamKey → List (BeamState ℚ≥0) :=
  b.alphabet.prunedStep
    (selectClasses weights (min b.config.classesPerStep b.alphabet.classes)
      b.config.ctc.blankIndex)
    b.grammar.isValidPrefix fun c => weights.getD c 0

/-- **The `merge_state` calls of a timestep** follow every state of the beam by one step. -/
theorem expandBeam_eq {weights : List ℚ≥0} {selected : List ℕ} (beam : List (BeamState ℚ≥0))
    (hsel : ∀ c ∈ selected, c < b.alphabet.classes) :
    b.expandBeam weights selected beam = .ok (Weighted.bind beam
      (b.alphabet.prunedStep selected b.grammar.isValidPrefix fun c => weights.getD c 0)) := by
  rw [expandBeam]
  have hstate : ∀ st : BeamState ℚ≥0, (selected.mapM fun c => b.expandClass weights st c) =
      .ok (selected.map fun c =>
        ((b.alphabet.spellings (kept b.alphabet.blank st.lastClass c)).filter fun e =>
          e.1.isEmpty || b.grammar.isValidPrefix (st.text ++ e.1)).map fun e =>
            (toLex (st.text ++ e.1, c), st.weight * weights.getD c 0 * e.2)) := fun st =>
    except_mapM_eq_ok fun c hc => expandClass_eq weights st (hsel c hc)
  have hbeam := except_mapM_eq_ok (l := beam) (f := fun st => do
    let calls ← selected.mapM fun c => b.expandClass weights st c
    return calls.flatten) fun st _ => by rw [hstate st]; rfl
  rw [hbeam]
  refine congrArg Except.ok ?_
  simp only [Weighted.bind, CtcAlphabet.prunedStep, ← List.flatMap_def, List.map_flatMap,
    List.map_map, Function.comp_def, mul_assoc]
  rfl

/-- **One timestep merges what the pruned step reaches.** -/
theorem mergeRow_eq {row : List F} {classes : ℕ} {beam : List (BeamState ℚ≥0)}
    {merged : OrdMap BeamKey ℚ≥0} (hclasses : classes = b.alphabet.classes)
    (hrow : row.length = classes) (h : b.mergeRow row classes beam = .ok merged) :
    ∃ weights, logSoftmax ℚ≥0 row = .ok weights ∧ weights.length = b.alphabet.classes ∧
      merged = (Weighted.bind beam (b.searchStep weights)).foldl accumulate OrdMap.empty := by
  obtain ⟨_, hstep, h⟩ := except_bind_eq_ok.mp h
  obtain ⟨weights, hweights, hsel⟩ := except_bind_eq_ok.mp hstep
  obtain rfl := Except.ok.inj hsel
  have hlen : weights.length = b.alphabet.classes := by
    rw [length_of_logSoftmax hweights, hrow, hclasses]
  have hblank : b.config.ctc.blankIndex < weights.length :=
    hlen ▸ GreedyCtcDecoderConfig.blankIndex_lt ctc_accepted
  refine ⟨weights, hweights, hlen, ?_⟩
  have hsel : ∀ c ∈ selectClasses weights (min b.config.classesPerStep classes)
      b.config.ctc.blankIndex, c < b.alphabet.classes := fun c hc =>
    hlen ▸ mem_selectClasses_lt hblank hc
  obtain ⟨calls, hcalls, h⟩ := except_bind_eq_ok.mp h
  rw [expandBeam_eq beam hsel, hclasses] at hcalls
  rw [← Except.ok.inj h, ← Except.ok.inj hcalls]
  rfl

/-- The blank keeps every state alive, so the search never runs out of states. -/
theorem cutBeam_ne_nil {row : List F} {classes : ℕ} {beam : List (BeamState ℚ≥0)}
    {merged : OrdMap BeamKey ℚ≥0} (hclasses : classes = b.alphabet.classes)
    (hrow : row.length = classes) (hbeam : beam ≠ [])
    (h : b.mergeRow row classes beam = .ok merged) : b.cutBeam merged ≠ [] := by
  obtain ⟨weights, -, -, rfl⟩ := mergeRow_eq hclasses hrow h
  obtain ⟨st, hst⟩ := List.exists_mem_of_ne_nil _ hbeam
  have hsel : b.config.ctc.blankIndex ∈ selectClasses weights
      (min b.config.classesPerStep b.alphabet.classes) b.config.ctc.blankIndex := by
    rw [selectClasses]
    split
    · assumption
    · simp
  have hnil : ([], 1) ∈ b.alphabet.spellings
      (kept b.alphabet.blank (ofLex st.1).2 b.config.ctc.blankIndex) := by
    rw [kept, if_pos (Or.inl (show b.config.ctc.blankIndex = b.alphabet.blank from rfl))]
    exact List.mem_singleton_self _
  have hkey : toLex (st.text ++ [], b.config.ctc.blankIndex) ∈
      keys (Weighted.bind beam (b.searchStep weights)) := by
    refine mem_keys_bind.mpr ⟨st.1, List.mem_map_of_mem hst, List.mem_map.mpr ⟨_,
      List.mem_flatMap.mpr ⟨_, hsel, List.mem_map_of_mem (List.mem_filter.mpr ⟨hnil, rfl⟩)⟩, rfl⟩⟩
  rw [← mem_keys_merged] at hkey
  obtain ⟨v, hv⟩ := mem_keys.mp hkey
  intro hempty
  have hlen := congrArg List.length hempty
  have hpos := List.length_pos_of_mem hv
  have hwidth := beamWidth_pos (b := b)
  rw [cutBeam, List.length_take, length_stableSort, List.length_nil] at hlen
  omega

/-! ## The loop -/

/-- **The beams of a run.**  The early break never fires, so every timestep is a merged and cut
step from the beam before it. -/
theorem exists_beams {classes : ℕ} (hclasses : classes = b.alphabet.classes) {rows : List (List F)}
    {beam final : List (BeamState ℚ≥0)} (hrows : ∀ row ∈ rows, row.length = classes)
    (hbeam : beam ≠ []) (h : b.beamLoop classes rows beam = .ok final) :
    ∃ beams : ℕ → List (BeamState ℚ≥0), beams 0 = beam ∧ beams rows.length = final ∧
      ∀ n (hn : n < rows.length), ∃ merged, b.mergeRow rows[n] classes (beams n) = .ok merged ∧
        beams (n + 1) = b.cutBeam merged ∧
        (b.untruncated classes rows beam = true → merged.size ≤ b.config.beamWidth) := by
  induction rows generalizing beam with
  | nil => exact ⟨fun _ => beam, rfl, Except.ok.inj h, fun n hn => absurd hn (Nat.not_lt_zero n)⟩
  | cons row rows ih =>
    obtain ⟨merged, hmerged, h⟩ := except_bind_eq_ok.mp h
    have hne := cutBeam_ne_nil hclasses (hrows row List.mem_cons_self) hbeam hmerged
    rw [if_neg (by simpa using hne)] at h
    obtain ⟨beams, h0, hlast, hstep⟩ :=
      ih (fun r hr => hrows r (List.mem_cons_of_mem _ hr)) hne h
    have huntruncated : b.untruncated classes (row :: rows) beam = true →
        merged.size ≤ b.config.beamWidth ∧
          b.untruncated classes rows (b.cutBeam merged) = true := fun hu => by
      rw [untruncated, hmerged] at hu
      simpa using hu
    refine ⟨fun n => n.casesOn beam beams, rfl, hlast, fun n hn => ?_⟩
    cases n with
    | zero => exact ⟨merged, hmerged, h0, fun hu => (huntruncated hu).1⟩
    | succ n =>
      obtain ⟨m, hm, hnext, hsize⟩ := hstep n (Nat.lt_of_succ_lt_succ hn)
      exact ⟨m, hm, hnext, fun hu => hsize (huntruncated hu).2⟩

/-- **The beams of a decode**, each from the one before by a pruned step over the softmax weights of
its row. -/
theorem exists_beams_of_finalBeam {logits : List F} {timesteps classes : ℕ}
    {final : List (BeamState ℚ≥0)} (hclasses : classes = b.alphabet.classes)
    (hlen : logits.length = timesteps * classes)
    (h : b.finalBeam ℚ≥0 logits timesteps classes = .ok final) :
    ∃ (beams : ℕ → List (BeamState ℚ≥0)) (selected : ℕ → List ℕ),
      beams 0 = [(b.alphabet.start, 1)] ∧ beams timesteps = final ∧ ∀ n < timesteps,
        (selected n).Subperm (List.range b.alphabet.classes) ∧
        (b.alphabet.classes ≤ b.config.classesPerStep →
          (selected n).Perm (List.range b.alphabet.classes)) ∧
        ∃ merged : OrdMap BeamKey ℚ≥0, beams (n + 1) = b.cutBeam merged ∧
          merged = (Weighted.bind (beams n) (b.alphabet.prunedStep (selected n)
            b.grammar.isValidPrefix (rowWeight logits classes n))).foldl accumulate OrdMap.empty ∧
          (b.untruncated classes ((List.range timesteps).map (logitsRow logits classes))
            b.initialBeam = true → merged.size ≤ b.config.beamWidth) := by
  obtain ⟨beams, h0, hfinal, hstep⟩ :=
    exists_beams hclasses (length_of_mem_rows hlen) (List.cons_ne_nil _ _) h
  rw [List.length_map, List.length_range] at hfinal
  simp only [List.length_map, List.length_range, List.getElem_map, List.getElem_range] at hstep
  choose! merged hmerged hnext hsize using hstep
  have hweights : ∀ n < timesteps, ∃ weights, logSoftmax ℚ≥0 (logitsRow logits classes n) =
      .ok weights ∧ weights.length = b.alphabet.classes ∧ merged n = (Weighted.bind (beams n)
        (b.searchStep weights)).foldl accumulate OrdMap.empty := fun n hn =>
    mergeRow_eq hclasses (length_logitsRow hlen hn) (hmerged n hn)
  choose! weights hsoftmax hlength heq using hweights
  refine ⟨beams, fun n => selectClasses (weights n) (min b.config.classesPerStep b.alphabet.classes)
    b.config.ctc.blankIndex, h0, hfinal, fun n hn => ?_⟩
  have hblank : b.config.ctc.blankIndex < (weights n).length :=
    hlength n hn ▸ GreedyCtcDecoderConfig.blankIndex_lt ctc_accepted
  have hrowWeight : (fun c => (weights n).getD c 0) = rowWeight logits classes n := by
    funext c
    rw [rowWeight, hsoftmax n hn]
  refine ⟨hlength n hn ▸ selectClasses_subperm hblank, fun hall => hlength n hn ▸
    selectClasses_perm hblank (by rw [hlength n hn]; omega), merged n, hnext n hn, ?_, hsize n hn⟩
  rw [heq n hn, searchStep, hrowWeight]

/-! ## Exactness -/

/-- A step to a relevant state comes from a relevant state. -/
theorem Relevant.of_mem_keys_step (hmax : 8 ≤ b.grammar.config.maximumInputLength) {w : ℕ → ℚ≥0}
    {k k' : BeamKey} (h : b.Relevant k') (hstep : k' ∈ keys (b.alphabet.step w k)) :
    b.Relevant k := by
  obtain ⟨hstable, hvalid⟩ := h
  rcases b.alphabet.word_of_mem_keys_step hstep with hword | ⟨x, hword⟩
  · rw [hword] at hstable hvalid
    exact ⟨hstable, hvalid⟩
  · rw [hword] at hstable hvalid
    exact ⟨fun c hc => hstable c (List.mem_append_left _ hc),
      TurkishPlateGrammar.isValidPrefix_of_concat hstable hmax hvalid⟩

section

variable {logits : List F} {timesteps classes : ℕ} {beam : List (BeamState ℚ≥0)}
  (hclasses : classes = b.alphabet.classes) (hlen : logits.length = timesteps * classes)
  (hbeam : b.finalBeam ℚ≥0 logits timesteps classes = .ok beam)

include hclasses hlen hbeam

/-- **No text is over-counted.** -/
theorem score_le_alignmentMass {text : Text} {score : ℚ≥0}
    (h : (b.finalScores beam).find? text = some score) :
    score ≤ b.alignmentMass logits timesteps classes text := by
  obtain ⟨hvalid, -⟩ := (isSome_finalScores beam text).mp (by rw [h]; rfl)
  have hscore := getD_finalScores beam hvalid
  rw [h, Option.getD_some] at hscore
  obtain ⟨beams, selected, h0, hfinal, hstep⟩ := exists_beams_of_finalBeam hclasses hlen hbeam
  have hcut : ∀ n < timesteps, ∀ k, coeff (beams (n + 1)) k ≤ coeff (Weighted.bind (beams n)
      (b.alphabet.prunedStep (selected n) b.grammar.isValidPrefix
        (rowWeight logits classes n))) k := fun n hn k => by
    obtain ⟨-, -, merged, hnext, heq, -⟩ := hstep n hn
    rw [← coeff_merged (Weighted.bind _ _), ← heq, hnext]
    exact coeff_cutBeam_le merged k
  have hdrop : ∀ n < timesteps, ∀ k k', coeff (b.alphabet.prunedStep (selected n)
      b.grammar.isValidPrefix (rowWeight logits classes n) k) k' ≤
        coeff (b.alphabet.step (rowWeight logits classes n) k) k' := fun n hn _ _ =>
    b.alphabet.coeff_prunedStep_le (hstep n hn).1
  have hle := coeff_le_paths h0 hcut hdrop
  rw [hscore, alignmentMass, CtcAlphabet.mass_eq_pairing, ← hfinal]
  exact pairing_mono (hle timesteps le_rfl) fun _ => le_rfl

variable (hmax : 8 ≤ b.grammar.config.maximumInputLength)
  (hroom : b.untruncated classes ((List.range timesteps).map (logitsRow logits classes))
    b.initialBeam = true)
  (hall : classes ≤ b.config.classesPerStep)

include hmax hroom hall

/-- **On plates an uncut search is exact**, in weight and in the states it reaches. -/
theorem coeff_finalBeam {k : BeamKey} (hk : b.Relevant k) :
    coeff beam k = coeff (paths b.alphabet.start
      (fun n => b.alphabet.step (rowWeight logits classes n)) timesteps) k ∧
    (k ∈ keys beam ↔ k ∈ keys (paths b.alphabet.start
      (fun n => b.alphabet.step (rowWeight logits classes n)) timesteps)) := by
  obtain ⟨beams, selected, h0, hfinal, hstep⟩ := exists_beams_of_finalBeam hclasses hlen hbeam
  have hperm : ∀ n < timesteps, ∃ merged : OrdMap BeamKey ℚ≥0,
      (beams (n + 1)).Perm merged.entries ∧
      merged = (Weighted.bind (beams n) (b.alphabet.prunedStep (selected n)
        b.grammar.isValidPrefix (rowWeight logits classes n))).foldl accumulate OrdMap.empty :=
    fun n hn => by
      obtain ⟨-, -, merged, hnext, heq, hsize⟩ := hstep n hn
      exact ⟨merged, hnext ▸ cutBeam_perm (hsize hroom), heq⟩
  have hsel : ∀ n < timesteps, (selected n).Perm (List.range b.alphabet.classes) := fun n hn =>
    (hstep n hn).2.1 (hclasses ▸ hall)
  have hback : ∀ n < timesteps, ∀ k k', b.Relevant k' →
      k' ∈ keys (b.alphabet.step (rowWeight logits classes n) k) → b.Relevant k :=
    fun n _ k k' hk' hmem => hk'.of_mem_keys_step hmax hmem
  rw [← hfinal]
  constructor
  · refine coeff_eq_paths_of_kept h0 (fun n hn k => ?_)
      (fun n hn k k' hk' => b.alphabet.coeff_prunedStep (hsel n hn) hk'.2) hback
      timesteps le_rfl k hk
    obtain ⟨merged, hbeams, heq⟩ := hperm n hn
    rw [← coeff_merged (Weighted.bind _ _), ← heq]
    exact pairing_perm hbeams _
  · refine mem_keys_paths_of_kept h0 (fun n hn k => ?_)
      (fun n hn k k' hk' => b.alphabet.mem_keys_prunedStep (hsel n hn) hk'.2) hback
      timesteps le_rfl k hk
    obtain ⟨merged, hbeams, heq⟩ := hperm n hn
    rw [← mem_keys_merged (Weighted.bind _ _), ← heq]
    exact (hbeams.map _).mem_iff

/-- **The score of a plate is its sum over all alignments.** -/
theorem score_eq_alignmentMass {text : Text}
    (hvalid : b.grammar.isValidNormalized text = true) :
    ((b.finalScores beam).find? text).getD 0 = b.alignmentMass logits timesteps classes text := by
  rw [getD_finalScores beam hvalid, alignmentMass, CtcAlphabet.mass_eq_pairing]
  refine pairing_congr fun k => ?_
  by_cases hk : (ofLex k).1 = text
  · rw [(coeff_finalBeam hclasses hlen hbeam hmax hroom hall
      (Relevant.of_plate hmax (hk ▸ hvalid))).1]
  · rw [if_neg hk, mul_zero, mul_zero]

/-- **The scored texts are the plates some alignment spells.** -/
theorem isSome_finalScores_iff_isSpelled (text : Text) :
    ((b.finalScores beam).find? text).isSome ↔
      b.grammar.isValidNormalized text = true ∧ b.alphabet.IsSpelled timesteps text := by
  rw [isSome_finalScores]
  refine and_congr_right fun hvalid => ?_
  constructor
  · rintro ⟨k, hmem, rfl⟩
    have hpaths := (coeff_finalBeam hclasses hlen hbeam hmax hroom hall
      (Relevant.of_plate hmax hvalid)).2.mp hmem
    obtain ⟨π, hword, -⟩ := (b.alphabet.mem_keys_paths _).mp hpaths
    exact ⟨π, hword⟩
  · rintro ⟨π, hword⟩
    refine ⟨toLex (text, lastClass b.alphabet.blank (b.alphabet.classList π)), ?_, rfl⟩
    have hrelevant : b.Relevant
        (toLex (text, lastClass b.alphabet.blank (b.alphabet.classList π))) :=
      Relevant.of_plate hmax hvalid
    exact (coeff_finalBeam hclasses hlen hbeam hmax hroom hall hrelevant).2.mpr
      ((b.alphabet.mem_keys_paths _).mpr ⟨π, hword, rfl⟩)

end

/-- **Beam-search exactness.**  Every candidate that is not the fallback carries the final score of
its text, no final score exceeds the sum over all alignments, and when no timestep cuts the beam and
every class is looked at, the final scores are those sums, of exactly the plates some alignment
spells. -/
theorem decode_scores (b : ConstrainedCtcBeamSearch F)
    (hmax : 8 ≤ b.grammar.config.maximumInputLength) {logits : List F} {timesteps classes : ℕ}
    {result : ConstrainedCtcBeamSearchResult F}
    (h : b.decode ℚ≥0 logits timesteps classes = .ok result) :
    ∃ beam, b.finalBeam ℚ≥0 logits timesteps classes = .ok beam ∧
      (result.fallbackUsed = false → ∀ c ∈ result.candidates, ∃ score,
        (b.finalScores beam).find? c.text = some score ∧
          c = scoredCandidate timesteps (c.text, score)) ∧
      (∀ text score, (b.finalScores beam).find? text = some score →
        score ≤ b.alignmentMass logits timesteps classes text) ∧
      (b.untruncated classes ((List.range timesteps).map (logitsRow logits classes))
          b.initialBeam = true →
        classes ≤ b.config.classesPerStep →
          (∀ text score, (b.finalScores beam).find? text = some score →
            score = b.alignmentMass logits timesteps classes text) ∧
          (∀ text, ((b.finalScores beam).find? text).isSome ↔
            b.grammar.isValidNormalized text = true ∧ b.alphabet.IsSpelled timesteps text) ∧
          ∀ text, (∃ score, (b.finalScores beam).find? text = some score ∧ 0 < score) ↔
            b.grammar.isValidNormalized text = true ∧
              0 < b.alignmentMass logits timesteps classes text) := by
  obtain ⟨greedy, beam, -, hclasses, hlen, hbeam, -, -, hcandidates⟩ := decode_eq_ok h
  refine ⟨beam, hbeam, fun hused c hc => ?_, fun text score hscore =>
    score_le_alignmentMass hclasses hlen hbeam hscore, fun hroom hall => ?_⟩
  · rcases hcandidates with ⟨-, hcandidates⟩ | ⟨hfallback, -⟩
    · rw [hcandidates] at hc
      exact mem_scoredCandidates hc
    · rw [hused] at hfallback
      cases hfallback
  · have hexact : ∀ text score, (b.finalScores beam).find? text = some score →
        score = b.alignmentMass logits timesteps classes text := fun text score hscore => by
      have hvalid := ((isSome_finalScores beam text).mp (by rw [hscore]; rfl)).1
      rw [← score_eq_alignmentMass hclasses hlen hbeam hmax hroom hall hvalid, hscore]
      rfl
    refine ⟨hexact, isSome_finalScores_iff_isSpelled hclasses hlen hbeam hmax hroom hall,
      fun text => ⟨?_, ?_⟩⟩
    · rintro ⟨score, hscore, hpos⟩
      have hvalid := ((isSome_finalScores beam text).mp (by rw [hscore]; rfl)).1
      exact ⟨hvalid, hexact text score hscore ▸ hpos⟩
    · rintro ⟨hvalid, hpos⟩
      have hscore := score_eq_alignmentMass hclasses hlen hbeam hmax hroom hall hvalid
      cases hfind : (b.finalScores beam).find? text with
      | none =>
        rw [hfind, Option.getD_none] at hscore
        exact absurd hpos (hscore ▸ lt_irrefl _)
      | some score => exact ⟨score, rfl, hexact text score hfind ▸ hpos⟩

/-! ### A plate read off one-hot rows -/

section OneHot

/-- Logits so far apart that every softmax row is one-hot. -/
@[reducible] def oneHotArithmetic : CtcArithmetic ℚ ℚ≥0 where
  expDiff value maximum := if value = maximum then 1 else 0
  ofFloat value := value.toNNRat
  toFloat weight := weight
  root weight _ := weight

attribute [local instance] oneHotArithmetic

/-- A search over the characters `1` and `A` that looks at every class. -/
def oneHotSearch : ConstrainedCtcBeamSearch ℚ where
  config := { ctc := { charset := ascii "1A" }, beamWidth := 512, classesPerStep := 3 }
  grammar := .default
  accepted := by decide +kernel

/-- The logits of the plate `11A1111`, with a blank between repeated characters. -/
def oneHotLogits : List ℚ :=
  [1, 0, 1, 2, 1, 0, 1, 0, 1, 0, 1].flatMap fun c =>
    (List.range 3).map fun k => if k = c then 0 else -1000

theorem oneHot_run : (match oneHotSearch.decode ℚ≥0 oneHotLogits 11 3,
      oneHotSearch.finalBeam ℚ≥0 oneHotLogits 11 3 with
    | .ok _, .ok beam => ((oneHotSearch.finalScores beam).find? (ascii "11A1111")).isSome &&
        oneHotSearch.untruncated 3 ((List.range 11).map (logitsRow oneHotLogits 3))
          oneHotSearch.initialBeam
    | _, _ => false) = true := by
  decide +kernel

theorem decode_scores_oneHot :
    ∃ beam, oneHotSearch.finalBeam ℚ≥0 oneHotLogits 11 3 = .ok beam ∧
      (oneHotSearch.finalScores beam).find? (ascii "11A1111") =
        some (oneHotSearch.alignmentMass oneHotLogits 11 3 (ascii "11A1111")) := by
  have hrun := oneHot_run
  cases hdecode : oneHotSearch.decode ℚ≥0 oneHotLogits 11 3 with
  | error e =>
    rw [hdecode] at hrun
    cases hrun
  | ok result =>
    obtain ⟨beam, hbeam, -, -, hexact⟩ := decode_scores oneHotSearch (by decide) hdecode
    rw [hdecode, hbeam] at hrun
    obtain ⟨hscored, hroom⟩ := Bool.and_eq_true_iff.mp hrun
    obtain ⟨score, hscore⟩ := Option.isSome_iff_exists.mp hscored
    refine ⟨beam, hbeam, ?_⟩
    rw [hscore, (hexact hroom (by decide)).1 _ _ hscore]

end OneHot

end ConstrainedCtcBeamSearch

end FacLpr
