import FacLpr.CApi.ResultReader

/-!
# CApi/TwoPass — the serializer's two passes, and its round trip

`serialize_outcomes` says all a call can do: either measuring throws, and every call with this
result returns that error, or the result has one layout, and a call's outcome is a function of the
buffer's address and capacity and of that layout.
-/

namespace FacLpr

open Wire

/-- The outcome of a call for a result whose layout is `l`. -/
def outcomeOf (l : Layout) (buffer : OutputBuffer) : SerializeOutcome :=
  if buffer.address = 0 ∨ buffer.capacity < l.finish then
    ⟨.bufferTooSmall, some l.finish, buffer.contents⟩
  else if buffer.address % wireAlignment ≠ 0 then
    ⟨.configurationError, some l.finish, buffer.contents⟩
  else ⟨.ok, some l.finish, applyWrites buffer.contents l.writes⟩

theorem toCStatus_ne (code : EngineErrorCode) :
    toCStatus code ≠ .ok ∧ toCStatus code ≠ .bufferTooSmall := by
  cases code <;> decide

/-- **What a call can do.** -/
theorem serialize_outcomes (result : LprPipelineResult Binary32 Binary64) :
    (∃ error, (∃ w, serializeImpl result (.fresh none 0) = .error (.engine error) w) ∧
      ∀ buffer, serializeResultV1 result buffer false =
        some ⟨toCStatus error.code, some 0, buffer.contents⟩) ∨
    ∃ l : Layout, l.Inside 0 ∧ Tiles 0 l.reserved l.finish ∧ l.finish ≤ maxResultBytes ∧
      (∀ mem, Holds mem l.writes → readResult mem = some result.view) ∧
      (∀ bytes capacity, bytes = none ∨ l.finish ≤ capacity →
        serializeImpl result (.fresh bytes capacity) =
          .ok l.finish ((BufferWriter.fresh bytes capacity).advance l)) ∧
      ∀ buffer, serializeResultV1 result buffer false = some (outcomeOf l buffer) := by
  rcases lays_serializeImpl result (Nat.zero_le _) with
    ⟨error, herror⟩ | ⟨required, l, ⟨rfl, hin, hread⟩, htiles, hmax, hrun⟩
  · obtain ⟨w, hw⟩ := herror (.fresh none 0) rfl rfl
    refine Or.inl ⟨error, ⟨w, hw⟩, fun buffer => ?_⟩
    simp only [serializeResultV1, Bool.false_eq_true, if_false, hw, caughtStatus, Option.map_some]
  · have hpass : ∀ bytes capacity, bytes = none ∨ l.finish ≤ capacity →
        serializeImpl result (.fresh bytes capacity) =
          .ok l.finish ((BufferWriter.fresh bytes capacity).advance l) :=
      fun bytes capacity hroom => hrun (.fresh bytes capacity) rfl hroom
    refine Or.inr ⟨l, hin, htiles, hmax, hread, hpass, fun buffer => ?_⟩
    simp only [serializeResultV1, Bool.false_eq_true, if_false, hpass none 0 (Or.inl rfl),
      outcomeOf]
    split
    · rfl
    · rename_i hroom
      rw [not_or, not_lt] at hroom
      split
      · rfl
      · rw [hpass _ _ (Or.inr hroom.2)]
        simp [BufferWriter.contents, BufferWriter.advance, BufferWriter.fresh]

/-- **No size computation wraps, and a call that fails leaves the buffer alone.** -/
theorem serializeResultV1_total (result : LprPipelineResult Binary32 Binary64)
    (buffer : OutputBuffer) (requiredIsNull : Bool) :
    ∃ outcome, serializeResultV1 result buffer requiredIsNull = some outcome ∧
      (outcome.status ≠ .ok → outcome.contents = buffer.contents) := by
  cases requiredIsNull with
  | true => exact ⟨_, rfl, fun _ => rfl⟩
  | false =>
    rcases serialize_outcomes result with ⟨error, -, h⟩ | ⟨l, -, -, -, -, -, h⟩
    · exact ⟨_, h buffer, fun _ => rfl⟩
    · refine ⟨_, h buffer, fun hstatus => ?_⟩
      unfold outcomeOf at hstatus ⊢
      split
      · rfl
      · split
        · rfl
        · rename_i hroom haligned
          rw [if_neg hroom, if_neg haligned] at hstatus
          exact absurd rfl hstatus

/-- Bytes past the writes of a layout keep their value. -/
theorem Layout.Inside.applyWrites_of_le {l : Layout} {p i : ℕ} (h : l.Inside p) (mem : Memory)
    (hi : l.finish ≤ i) : applyWrites mem l.writes i = mem i :=
  applyWrites_of_notMem fun w hw => Or.inr ((h.bounds w hw).2.trans hi)

/-- **The result buffer round trip**: after a call that returns OK the reader recovers the result
from the bytes before the required size, whatever lies after them. -/
theorem readResult_serializeResultV1 {result : LprPipelineResult Binary32 Binary64}
    {buffer : OutputBuffer} {requiredIsNull : Bool} {outcome : SerializeOutcome}
    (h : serializeResultV1 result buffer requiredIsNull = some outcome)
    (hok : outcome.status = .ok) :
    ∃ required, outcome.required = some required ∧
      ∀ mem : Memory, (∀ i < required, mem i = outcome.contents i) →
        readResult mem = some result.view := by
  cases requiredIsNull with
  | true =>
    obtain rfl := Option.some.inj h
    cases hok
  | false =>
    rcases serialize_outcomes result with ⟨error, -, hall⟩ | ⟨l, hin, -, -, hread, -, hall⟩
    · rw [hall] at h
      obtain rfl := Option.some.inj h
      exact absurd hok (toCStatus_ne error.code).1
    · rw [hall] at h
      obtain rfl := Option.some.inj h
      unfold outcomeOf at hok ⊢
      split at hok
      · cases hok
      rename_i hroom
      split at hok
      · cases hok
      rename_i haligned
      rw [if_neg hroom, if_neg haligned]
      refine ⟨l.finish, rfl, fun mem hmem => hread mem fun w hw i hi => ?_⟩
      have hbound := (hin.bounds w hw).2
      have hlt : w.1 + i < l.finish := lt_of_lt_of_le (Nat.add_lt_add_left hi _) hbound
      rw [hmem _ hlt]
      exact holds_applyWrites buffer.contents hin.disjoint w hw i hi

/-- A result with one accepted plate. -/
def sampleResult : LprPipelineResult Binary32 Binary64 where
  recognitions := [{
    status := .accepted
    plate := ascii "34ABC123"
    confidence := ⟨0x3F600000⟩
    bbox := some ⟨⟨0x41200000⟩, ⟨0x41200000⟩, ⟨0x42C80000⟩, ⟨0x41F00000⟩⟩
    quadrilateral := none
    detectorConfidence := ⟨0x3F600000⟩
    geometryScore := ⟨0x3F800000⟩
    cropQuality := ⟨0x3F000000⟩
    evidence := [{
      source := ascii "lprnet-primary"
      candidates := [⟨ascii "34ABC123", ⟨0x3F600000⟩, ⟨0x3F600000⟩, true⟩]
      cropQuality := ⟨0x3F000000⟩
      latencyMs := ⟨0x4011000000000000⟩ }]
    alternatives := [⟨ascii "34ABC123", ⟨0x3F600000⟩, ⟨0x3F600000⟩, true⟩,
      ⟨ascii "34A8C123", ⟨0x3E800000⟩, ⟨0x3E800000⟩, false⟩]
    decisionReasons := [.acceptedConsensus]
    degraded := false
    totalLatencyMs := ⟨0x4011000000000000⟩ }]
  stageTimings := []
  failures := []
  totalLatencyMs := ⟨0x402C000000000000⟩
  providerFailureCount := 0
  degraded := false

theorem readResult_sampleResult :
    ∃ outcome, serializeResultV1 sampleResult ⟨4096, 4096, fun _ => 0⟩ false = some outcome ∧
      readResult outcome.contents = some sampleResult.view := by
  have hstatus : (serializeResultV1 sampleResult ⟨4096, 4096, fun _ => 0⟩ false).map
      SerializeOutcome.status = some .ok := by decide +kernel
  obtain ⟨outcome, h, hok⟩ := Option.map_eq_some_iff.mp hstatus
  obtain ⟨_, -, hread⟩ := readResult_serializeResultV1 h hok
  exact ⟨outcome, h, hread _ fun _ _ => rfl⟩

/-- **The two passes agree, and a call is atomic.** -/
theorem serializeResultV1_twoPass (result : LprPipelineResult Binary32 Binary64) :
    (∀ buffer requiredIsNull, ∃ outcome,
      serializeResultV1 result buffer requiredIsNull = some outcome ∧
        (outcome.status ≠ .ok → outcome.contents = buffer.contents)) ∧
    ((∃ error : EngineError,
        (∃ w, serializeImpl result (.fresh none 0) = .error (.engine error) w) ∧
        toCStatus error.code ≠ .ok ∧ toCStatus error.code ≠ .bufferTooSmall ∧
        ∀ buffer, serializeResultV1 result buffer false =
          some ⟨toCStatus error.code, some 0, buffer.contents⟩) ∨
      ∃ required ranges, required ≤ maxResultBytes ∧
        (∀ r ∈ ranges, r.1 % wireAlignment = 0 ∧ r.1 + r.2 ≤ required) ∧
        (ranges.Pairwise fun r s => r.1 + r.2 ≤ s.1) ∧
        (∀ capacity, serializeImpl result (.fresh none capacity) =
          .ok required ⟨none, capacity, required, ranges⟩) ∧
        (∀ mem capacity, required ≤ capacity → ∃ mem', (∀ i, required ≤ i → mem' i = mem i) ∧
          serializeImpl result (.fresh (some mem) capacity) =
            .ok required ⟨some mem', capacity, required, ranges⟩) ∧
        ∀ buffer,
          (buffer.address = 0 ∨ buffer.capacity < required →
            serializeResultV1 result buffer false =
              some ⟨.bufferTooSmall, some required, buffer.contents⟩) ∧
          (buffer.address ≠ 0 → required ≤ buffer.capacity →
            buffer.address % wireAlignment = 0 → ∃ mem',
              (∀ i, required ≤ i → mem' i = buffer.contents i) ∧
              serializeResultV1 result buffer false = some ⟨.ok, some required, mem'⟩) ∧
          (buffer.address ≠ 0 → required ≤ buffer.capacity →
            buffer.address % wireAlignment ≠ 0 → serializeResultV1 result buffer false =
              some ⟨.configurationError, some required, buffer.contents⟩)) := by
  refine ⟨serializeResultV1_total result, ?_⟩
  rcases serialize_outcomes result with ⟨error, hmeasure, h⟩ | ⟨l, hin, htiles, hmax, -, hpass, h⟩
  · exact Or.inl ⟨error, hmeasure, (toCStatus_ne error.code).1, (toCStatus_ne error.code).2, h⟩
  refine Or.inr ⟨l.finish, l.reserved, hmax, fun r hr => ?_, htiles.pairwise, fun capacity =>
    hpass none capacity (Or.inl rfl), fun mem capacity hcapacity => ?_, fun buffer => ⟨?_, ?_, ?_⟩⟩
  · exact ⟨(htiles.mem_bounds r hr).1, (htiles.mem_bounds r hr).2.2⟩
  · exact ⟨applyWrites mem l.writes, fun i hi => hin.applyWrites_of_le mem hi,
      hpass (some mem) capacity (Or.inr hcapacity)⟩
  · intro hsmall
    rw [h, outcomeOf, if_pos hsmall]
  · intro haddress hcapacity haligned
    refine ⟨applyWrites buffer.contents l.writes, fun i hi =>
      hin.applyWrites_of_le buffer.contents hi, ?_⟩
    rw [h, outcomeOf, if_neg (not_or.mpr ⟨haddress, not_lt.mpr hcapacity⟩),
      if_neg (not_not.mpr haligned)]
  · intro haddress hcapacity haligned
    rw [h, outcomeOf, if_neg (not_or.mpr ⟨haddress, not_lt.mpr hcapacity⟩), if_pos haligned]

/-- Measuring `sampleResult` does not throw, so both passes run and agree on its required size. -/
theorem serializeResultV1_twoPass_sampleResult :
    ∃ required, required ≤ maxResultBytes ∧ ∀ buffer : OutputBuffer,
      (buffer.address = 0 ∨ buffer.capacity < required →
        serializeResultV1 sampleResult buffer false =
          some ⟨.bufferTooSmall, some required, buffer.contents⟩) ∧
      (buffer.address ≠ 0 → required ≤ buffer.capacity → buffer.address % wireAlignment = 0 →
        ∃ mem', serializeResultV1 sampleResult buffer false = some ⟨.ok, some required, mem'⟩) := by
  have hstatus : (serializeResultV1 sampleResult ⟨4096, 4096, fun _ => 0⟩ false).map
      SerializeOutcome.status = some .ok := by decide +kernel
  rcases (serializeResultV1_twoPass sampleResult).2 with
    ⟨error, -, hne, -, h⟩ | ⟨required, ranges, hmax, -, -, -, -, hbuffer⟩
  · rw [h] at hstatus
    exact absurd (Option.some.inj hstatus) hne
  · refine ⟨required, hmax, fun buffer => ⟨(hbuffer buffer).1, fun haddress hroom haligned => ?_⟩⟩
    obtain ⟨mem', -, hok⟩ := (hbuffer buffer).2.1 haddress hroom haligned
    exact ⟨mem', hok⟩

end FacLpr
