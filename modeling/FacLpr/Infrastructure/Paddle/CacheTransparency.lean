import FacLpr.Infrastructure.Paddle.PaddleOcrAdapter

/-!
# Infrastructure/Paddle/CacheTransparency — an adapter with a cache answers as one without

A sequence of calls threads the cache, and each call finds the world as others have left it.  A call
changes the cache by a hit or by a complete answer (`run_cases`), so the cache refines a map that
keeps what was used last (`inv_afterCalls`).  When the worker is a function of the payload and the
digest tells the payloads apart, what is hit is what the worker would answer (`transparent`).
-/

namespace FacLpr

open Program

/-- A call of `recognize`, with the world it finds. -/
structure PaddleOcrCall (σ : Type) where
  world : σ
  plate : ImageView
  context : OperationContext

namespace PaddleOcrAdapter

variable {σ F D : Type} [Scalar F] [Scalar D] [World σ] (adapter : PaddleOcrAdapter σ F)

/-- One call. -/
def run (call : PaddleOcrCall σ) (c : OcrCache (RecognitionEvidence F D)) :
    EStateM.Result Exn (σ × OcrCache (RecognitionEvidence F D)) (RecognitionEvidence F D) :=
  adapter.recognize call.plate call.context (call.world, c)

/-- The cache a call leaves, whether it returns or throws. -/
def cacheAfter {α κ : Type} : EStateM.Result Exn (σ × κ) α → κ
  | .ok _ (_, c) | .error _ (_, c) => c

/-- The cache after some calls. -/
def afterCalls (calls : List (PaddleOcrCall σ)) : OcrCache (RecognitionEvidence F D) :=
  calls.foldl (fun c call => cacheAfter (adapter.run call c)) .empty

/-- The payload the image of a call is encoded as. -/
def Encodes (call : PaddleOcrCall σ) (encoded : EncodedImage) : Prop :=
  ∃ s, adapter.encodePayload call.plate call.context call.world = .ok encoded s

/-- What a call completes of the worker's answer on its payload, which it files under a key. -/
def Answers (call : PaddleOcrCall σ) (key : Text) (evidence : RecognitionEvidence F D) : Prop :=
  ∃ encoded s s', adapter.Encodes call encoded ∧ key = sha256Hex encoded.bytes ∧
    adapter.recognizePayload encoded key call.context s = .ok evidence s'

/-- The same adapter with its cache switched off. -/
def withoutCache : PaddleOcrAdapter σ F where
  config := { adapter.config with cacheCapacity := 0 }
  encoder := adapter.encoder
  worker := adapter.worker
  accepted := adapter.accepted

variable {adapter}

omit [Scalar F] in
/-- The image of a call is encoded in one way. -/
theorem Encodes.unique {call : PaddleOcrCall σ} {encoded encoded' : EncodedImage}
    (h : adapter.Encodes call encoded) (h' : adapter.Encodes call encoded') :
    encoded = encoded' := by
  obtain ⟨s, hs⟩ := h
  obtain ⟨s', hs'⟩ := h'
  cases hs.symm.trans hs'
  rfl

/-- **A call** fails without a hit and leaves the cache, hits it, or completes an answer and stores
it. -/
theorem run_cases (call : PaddleOcrCall σ) (c : OcrCache (RecognitionEvidence F D)) :
    (∃ e s, adapter.run call c = .error e (s, c) ∧ ∀ encoded, adapter.Encodes call encoded →
      c.tryGetCached adapter.config.cacheCapacity (sha256Hex encoded.bytes) = (none, c) ∧
      ∃ t t', (adapter.recognizePayload encoded (sha256Hex encoded.bytes) call.context :
        Run σ (RecognitionEvidence F D)) t = .error e t') ∨
    (∃ encoded evidence s c', adapter.Encodes call encoded ∧
      c.tryGetCached adapter.config.cacheCapacity (sha256Hex encoded.bytes) =
        (some evidence, c') ∧ adapter.run call c = .ok evidence (s, c')) ∨
    ∃ encoded evidence s, adapter.Encodes call encoded ∧
      c.tryGetCached adapter.config.cacheCapacity (sha256Hex encoded.bytes) = (none, c) ∧
      adapter.Answers call (sha256Hex encoded.bytes) evidence ∧
      adapter.run call c = .ok evidence
        (s, c.storeCached adapter.config.cacheCapacity (sha256Hex encoded.bytes) evidence) := by
  cases hencode : adapter.encodePayload call.plate call.context call.world with
  | error e s =>
    refine Or.inl ⟨e, s, bind_run_error (onFst_run_error hencode c), fun encoded h => ?_⟩
    obtain ⟨s', hs'⟩ := h
    exact nomatch hencode.symm.trans hs'
  | ok encoded s =>
    rw [run, recognize, bind_run_ok (onFst_run_ok hencode c)]
    have hencodes : adapter.Encodes call encoded := ⟨s, hencode⟩
    cases hfound : c.tryGetCached adapter.config.cacheCapacity (sha256Hex encoded.bytes) with
    | mk found next =>
      have hlookup :
          adapter.tryGetCached (sha256Hex encoded.bytes) (s, c) = .ok found (s, next) := by
        rw [tryGetCached, hfound]
      rw [bind_run_ok hlookup]
      cases found with
      | some evidence => exact Or.inr (Or.inl ⟨encoded, evidence, s, next, hencodes, hfound, rfl⟩)
      | none =>
        obtain rfl := OcrCache.eq_of_tryGetCached_none hfound
        cases hrun : (adapter.recognizePayload encoded (sha256Hex encoded.bytes) call.context :
          Run σ (RecognitionEvidence F D)) s with
        | error e s' =>
          refine Or.inl ⟨e, s', bind_run_error (onFst_run_error hrun _), fun encoded' h => ?_⟩
          obtain rfl := h.unique hencodes
          exact ⟨hfound, s, s', hrun⟩
        | ok evidence s' =>
          refine Or.inr (Or.inr ⟨encoded, evidence, s', hencodes, hfound, ?_, ?_⟩)
          · exact ⟨encoded, s, s', hencodes, rfl, hrun⟩
          · exact bind_run_ok (onFst_run_ok hrun _)

/-! ## The invariant -/

variable (adapter) in
/-- What holds of the cache after some calls: it refines a map that keeps what was used last, and
what was stored was answered. -/
structure Inv (calls : List (PaddleOcrCall σ)) (c : OcrCache (RecognitionEvidence F D)) : Prop where
  refines : ∃ m : LruMap Text (RecognitionEvidence F D) adapter.config.cacheCapacity, c.Refines m
  answered : ∀ key evidence, .put key evidence ∈ c.log →
    ∃ call ∈ calls, adapter.Answers call key evidence

/-- What a call stores, when there is a cache. -/
theorem Inv.store {calls : List (PaddleOcrCall σ)} {c : OcrCache (RecognitionEvidence F D)}
    {call : PaddleOcrCall σ} (h : adapter.Inv calls c) {key : Text}
    {evidence : RecognitionEvidence F D} (hanswers : adapter.Answers call key evidence) :
    adapter.Inv (calls ++ [call])
      (c.storeCached adapter.config.cacheCapacity key evidence) := by
  obtain ⟨m, hm⟩ := h.refines
  have hold : ∀ key evidence, .put key evidence ∈ c.log →
      ∃ call' ∈ calls ++ [call], adapter.Answers call' key evidence := by
    intro key evidence hmem
    obtain ⟨call', hcall', hanswers'⟩ := h.answered key evidence hmem
    exact ⟨call', List.mem_append_left _ hcall', hanswers'⟩
  by_cases hcapacity : adapter.config.cacheCapacity = 0
  · have hsame : c.storeCached adapter.config.cacheCapacity key evidence = c := by
      rw [hcapacity, OcrCache.storeCached_zero]
    rw [hsame]
    exact ⟨⟨m, hm⟩, hold⟩
  · obtain ⟨hstored, hlog⟩ := hm.storeCached hcapacity key evidence
    refine ⟨⟨_, hstored⟩, fun k e hmem => ?_⟩
    rw [hlog, List.mem_append, List.mem_singleton] at hmem
    rcases hmem with hmem | heq
    · exact hold k e hmem
    · obtain ⟨rfl, rfl⟩ := LruUse.put.inj heq
      exact ⟨call, List.mem_append_right _ List.mem_cons_self, hanswers⟩

/-- **A hit** is of the value last stored, and is recorded. -/
theorem Inv.hit {calls : List (PaddleOcrCall σ)} {c c' : OcrCache (RecognitionEvidence F D)}
    (h : adapter.Inv calls c) {key : Text} {evidence : RecognitionEvidence F D}
    (hfound : c.tryGetCached adapter.config.cacheCapacity key = (some evidence, c')) :
    lastPut key c.log = some evidence ∧ c'.log = c.log ++ [.hit key evidence] ∧
      adapter.Inv calls c' := by
  obtain ⟨m, hm⟩ := h.refines
  have hcapacity : adapter.config.cacheCapacity ≠ 0 := by
    intro hzero
    rw [hzero, OcrCache.tryGetCached_zero] at hfound
    exact nomatch (Prod.mk.inj hfound).1
  rcases hm.tryGetCached hcapacity key with ⟨-, hnone⟩ | ⟨e, c'', hfind, hsome, hlog, hrefines⟩
  · exact nomatch (Prod.mk.inj (hfound.symm.trans hnone)).1
  · obtain ⟨heq, rfl⟩ := Prod.mk.inj (hfound.symm.trans hsome)
    obtain rfl := Option.some.inj heq
    refine ⟨hm.follows.find?_eq hfind, hlog, ⟨_, hrefines⟩, fun k e hmem => ?_⟩
    rw [hlog, List.mem_append, List.mem_singleton] at hmem
    exact h.answered k e (hmem.resolve_right nofun)

theorem Inv.call {calls : List (PaddleOcrCall σ)} {c : OcrCache (RecognitionEvidence F D)}
    (h : adapter.Inv calls c) (call : PaddleOcrCall σ) :
    adapter.Inv (calls ++ [call]) (cacheAfter (adapter.run call c)) := by
  have hmore : ∀ {c' : OcrCache (RecognitionEvidence F D)}, adapter.Inv calls c' →
      adapter.Inv (calls ++ [call]) c' := by
    refine fun h' => ⟨h'.refines, fun key evidence hmem => ?_⟩
    obtain ⟨call', hcall', hanswers⟩ := h'.answered key evidence hmem
    exact ⟨call', List.mem_append_left _ hcall', hanswers⟩
  rcases run_cases call c with ⟨e, s, hrun, -⟩ | ⟨encoded, evidence, s, c', -, hfound, hrun⟩ |
    ⟨encoded, evidence, s, -, -, hanswers, hrun⟩ <;> rw [hrun]
  · exact hmore h
  · exact hmore (h.hit hfound).2.2
  · exact h.store hanswers

/-- **The invariant holds after any calls.** -/
theorem inv_afterCalls (calls : List (PaddleOcrCall σ)) :
    adapter.Inv calls (adapter.afterCalls calls : OcrCache (RecognitionEvidence F D)) := by
  induction calls using List.reverseRecOn with
  | nil => exact ⟨⟨_, OcrCache.refines_empty⟩, nofun⟩
  | append_singleton calls call ih =>
    rw [afterCalls, List.foldl_concat]
    exact ih.call call

/-! ## What is answered -/

variable (adapter) in
/-- The worker answers a payload. -/
def WorkerAnswers (payload : List Byte) (response : PaddleOcrResponse F) : Prop :=
  ∃ request context s s', request.payload = payload ∧
    adapter.worker.recognize request context s = .ok response s'

variable (adapter) in
/-- The worker fails on a payload. -/
def WorkerThrows (payload : List Byte) (e : Exn) : Prop :=
  ∃ request context s s', request.payload = payload ∧
    adapter.worker.recognize request context s = .error e s'

/-- **A complete answer** is one of the worker's, checked. -/
theorem returns_recognizePayload (encoded : EncodedImage) (key : Text)
    (context : OperationContext) :
    Returns (adapter.recognizePayload encoded key context : Run σ (RecognitionEvidence F D))
      fun evidence => ∃ response latencyMs, adapter.WorkerAnswers encoded.bytes response ∧
        adapter.validateResponse response = .ok () ∧
        evidence = ⟨adapter.config.providerName, response.candidates, 0, latencyMs⟩ := by
  refine (returns_self _).bind fun _ _ => (returns_self _).bind fun bounded _ => ?_
  refine (returns_self _).bind fun _ _ => (returns_self _).bind fun response hresponse => ?_
  obtain ⟨s, s', hresponse⟩ := hresponse
  refine (returns_self _).bind fun _ _ => ?_
  refine (returns_runOfExcept fun _ h => h : Returns _ fun _ =>
    adapter.validateResponse response = .ok ()).bind fun _ hvalid => ?_
  refine (returns_self _).bind fun finished _ => returns_pure ?_
  exact ⟨response, _, ⟨_, bounded, s, s', rfl, hresponse⟩, hvalid, rfl⟩

/-- …and what fails is interrupted, or the worker fails, or what it answers does. -/
theorem throws_recognizePayload (encoded : EncodedImage) (key : Text)
    (context : OperationContext) :
    Throws (adapter.recognizePayload encoded key context : Run σ (RecognitionEvidence F D))
      fun e => IsInterruption e ∨ adapter.WorkerThrows encoded.bytes e ∨
        ∃ response, adapter.WorkerAnswers encoded.bytes response ∧
          adapter.validateResponse response ≠ .ok () := by
  refine throws_now.bind fun _ => Throws.bind ?_ fun bounded => ?_
  · exact throws_now.bind fun _ => throws_pure
  refine ((throws_checkContext _ _ _).mono fun _ h => Or.inl h).bind fun _ => ?_
  have hworker : Throws (adapter.worker.recognize ⟨encoded.bytes, encoded.mimeType, key⟩ bounded)
      (adapter.WorkerThrows encoded.bytes) := fun s e s' h => ⟨_, bounded, s, s', rfl, h⟩
  refine (hworker.mono fun _ h => Or.inr (Or.inl h)).bind_of_returns (returns_self _) ?_
  rintro response ⟨s, s', hresponse⟩
  refine ((throws_checkContext _ _ _).mono fun _ h => Or.inl h).bind fun _ => ?_
  refine Throws.bind (throws_runOfExcept fun error herror => ?_) fun _ => ?_
  · refine Or.inr (Or.inr ⟨response, ⟨_, bounded, s, s', rfl, hresponse⟩, ?_⟩)
    exact fun hok => nomatch herror.symm.trans hok
  · exact throws_now.bind fun _ => throws_pure

theorem Answers.spec {call : PaddleOcrCall σ} {key : Text} {evidence : RecognitionEvidence F D}
    (h : adapter.Answers call key evidence) :
    ∃ encoded response latencyMs, adapter.Encodes call encoded ∧ key = sha256Hex encoded.bytes ∧
      adapter.WorkerAnswers encoded.bytes response ∧ adapter.validateResponse response = .ok () ∧
      evidence = ⟨adapter.config.providerName, response.candidates, 0, latencyMs⟩ := by
  obtain ⟨encoded, s, s', hencodes, rfl, hrun⟩ := h
  obtain ⟨response, latencyMs, h⟩ := returns_recognizePayload _ _ _ _ _ _ hrun
  exact ⟨encoded, response, latencyMs, hencodes, rfl, h⟩

/-! ## With a cache and without -/

variable (adapter) in
/-- The digest tells the payloads of some calls apart. -/
def DigestInjective (calls : List (PaddleOcrCall σ)) : Prop :=
  ∀ a ∈ calls, ∀ b ∈ calls, ∀ p q, adapter.Encodes a p → adapter.Encodes b q →
    sha256Hex p.bytes = sha256Hex q.bytes → p.bytes = q.bytes

variable (adapter) in
/-- The worker is a function of the payload, when it answers. -/
def WorkerIsFunction (f : List Byte → PaddleOcrResponse F) : Prop :=
  ∀ payload response, adapter.WorkerAnswers payload response → response = f payload

/-- What is returned is what the worker answers on the payload of the call. -/
theorem evidence_of_run {f : List Byte → PaddleOcrResponse F} (hworker : adapter.WorkerIsFunction f)
    {calls : List (PaddleOcrCall σ)} {call : PaddleOcrCall σ}
    (hdigest : adapter.DigestInjective (calls ++ [call]))
    {c c' : OcrCache (RecognitionEvidence F D)} (hinv : adapter.Inv calls c)
    {evidence : RecognitionEvidence F D} {s : σ}
    (hrun : adapter.run call c = .ok evidence (s, c')) :
    ∃ encoded latencyMs, adapter.Encodes call encoded ∧
      adapter.validateResponse (f encoded.bytes) = .ok () ∧
      evidence = ⟨adapter.config.providerName, (f encoded.bytes).candidates, 0, latencyMs⟩ := by
  have hself : call ∈ calls ++ [call] := List.mem_append_right _ List.mem_cons_self
  -- a hit was stored by an earlier call, whose payload has the same digest
  have hanswered : ∃ encoded, adapter.Encodes call encoded ∧ ∃ call' ∈ calls ++ [call],
      adapter.Answers call' (sha256Hex encoded.bytes) evidence := by
    rcases run_cases call c with ⟨e, t, h, -⟩ | ⟨encoded, e, t, c'', hencodes, hfound, h⟩ |
      ⟨encoded, e, t, hencodes, -, hanswers, h⟩
    · exact nomatch hrun.symm.trans h
    · cases hrun.symm.trans h
      obtain ⟨call', hcall', hanswers⟩ :=
        hinv.answered _ _ (LruMap.put_mem_of_lastPut (hinv.hit hfound).1)
      exact ⟨encoded, hencodes, call', List.mem_append_left _ hcall', hanswers⟩
    · cases hrun.symm.trans h
      exact ⟨encoded, hencodes, call, hself, hanswers⟩
  obtain ⟨encoded, hencodes, call', hcall', hanswers⟩ := hanswered
  obtain ⟨encoded', response, latencyMs, hencodes', hkey, hresponse, hvalid, rfl⟩ := hanswers.spec
  have hbytes := hdigest call hself call' hcall' encoded encoded' hencodes hencodes' hkey
  obtain rfl := hworker _ _ hresponse
  rw [← hbytes] at hvalid ⊢
  exact ⟨encoded, latencyMs, hencodes, hvalid, rfl⟩

/-- **An adapter without a cache answers the same**, up to the latency, or is stopped before it
does. -/
theorem transparent {f : List Byte → PaddleOcrResponse F} (hworker : adapter.WorkerIsFunction f)
    {calls : List (PaddleOcrCall σ)} {call : PaddleOcrCall σ}
    (hdigest : adapter.DigestInjective (calls ++ [call]))
    {c c' : OcrCache (RecognitionEvidence F D)} (hinv : adapter.Inv calls c)
    {evidence : RecognitionEvidence F D} {s : σ}
    (hrun : adapter.run call c = .ok evidence (s, c'))
    (plain : OcrCache (RecognitionEvidence F D)) :
    (∃ latencyMs t, adapter.withoutCache.run call plain =
      .ok { evidence with latencyMs := latencyMs } (t, plain)) ∨
    ∃ e t encoded, adapter.withoutCache.run call plain = .error e (t, plain) ∧
      adapter.Encodes call encoded ∧
      (IsInterruption e ∨ adapter.WorkerThrows encoded.bytes e) := by
  obtain ⟨encoded, latencyMs, hencodes, hvalid, rfl⟩ := evidence_of_run hworker hdigest hinv hrun
  rcases adapter.withoutCache.run_cases call plain with ⟨e, t, h, hthrows⟩ |
    ⟨encoded', e, t, c'', -, hfound, -⟩ | ⟨encoded', e, t, hencodes', -, hanswers, h⟩
  · obtain ⟨-, u, u', hpayload⟩ := hthrows encoded hencodes
    refine Or.inr ⟨e, t, encoded, h, hencodes, ?_⟩
    rcases throws_recognizePayload _ _ _ _ _ _ hpayload with hstop | hworkerThrows |
      ⟨response, hresponse, hinvalid⟩
    · exact Or.inl hstop
    · exact Or.inr hworkerThrows
    · obtain rfl := hworker _ _ hresponse
      exact absurd hvalid hinvalid
  · exact nomatch (Prod.mk.inj (hfound.symm.trans (OcrCache.tryGetCached_zero _ _))).1
  · obtain ⟨encoded'', response, latencyMs', hencodes'', hkey, hresponse, -, rfl⟩ := hanswers.spec
    obtain rfl := hencodes'.unique hencodes
    obtain rfl := hencodes''.unique hencodes
    obtain rfl := hworker _ _ hresponse
    exact Or.inl ⟨latencyMs', t, h⟩

/-- **The cache of answers refines a map that keeps what was used last**, after any calls: the list
and the map are in step, the keys are those used last and hold what was last stored, only complete
answers are stored, and the next call fails without a hit and leaves the cache, hits it or stores at
its front.  A call that
returns returns what it would without a cache, when the digest tells the payloads apart. -/
theorem cache_refines_lru (adapter : PaddleOcrAdapter σ F) (calls : List (PaddleOcrCall σ)) :
    let c : OcrCache (RecognitionEvidence F D) := adapter.afterCalls calls
    let capacity := adapter.config.cacheCapacity
    (c.cache.keys.Perm c.lruKeys ∧ c.lruKeys.Nodup ∧ (c.lru.map Prod.fst).Nodup ∧
      (∀ key entry, c.cache.lookup key = some entry → (entry.lruIterator, key) ∈ c.lru) ∧
      c.cache.keys.length ≤ capacity) ∧
    (c.lruKeys = (recent (c.log.map LruUse.key)).take capacity ∧
      ∀ key entry, c.cache.lookup key = some entry → lastPut key c.log = some entry.evidence) ∧
    (∀ key evidence, .put key evidence ∈ c.log →
      ∃ call ∈ calls, adapter.Answers call key evidence) ∧
    (∀ call, (∃ e s, adapter.run call c = .error e (s, c) ∧ ∀ encoded,
        adapter.Encodes call encoded → sha256Hex encoded.bytes ∉ c.cache) ∨
      ∃ encoded evidence s c', adapter.Encodes call encoded ∧
        adapter.run call c = .ok evidence (s, c') ∧
        (lastPut (sha256Hex encoded.bytes) c.log = some evidence ∧
            c'.log = c.log ++ [.hit (sha256Hex encoded.bytes) evidence] ∨
          sha256Hex encoded.bytes ∉ c.cache ∧
            adapter.Answers call (sha256Hex encoded.bytes) evidence ∧
            (capacity = 0 ∧ c' = c ∨
              c'.log = c.log ++ [.put (sha256Hex encoded.bytes) evidence] ∧
                c'.lruKeys = (sha256Hex encoded.bytes :: c.lruKeys).take capacity))) ∧
    ∀ f call evidence s c', adapter.WorkerIsFunction f →
      adapter.DigestInjective (calls ++ [call]) → adapter.run call c = .ok evidence (s, c') →
        let plain : OcrCache (RecognitionEvidence F D) := adapter.withoutCache.afterCalls calls
        (∃ latencyMs t, adapter.withoutCache.run call plain =
          .ok { evidence with latencyMs := latencyMs } (t, plain)) ∨
        ∃ e t encoded, adapter.withoutCache.run call plain = .error e (t, plain) ∧
          adapter.Encodes call encoded ∧
          (IsInterruption e ∨ adapter.WorkerThrows encoded.bytes e) := by
  intro c capacity
  have hinv : adapter.Inv calls c := inv_afterCalls calls
  obtain ⟨m, hm⟩ := hinv.refines
  have hinStep := hm.wellFormed.toInStep
  refine ⟨⟨hinStep.perm_keys.symm, hinStep.keys, hinStep.nodes, ?_, ?_⟩, ⟨?_, ?_⟩,
    hinv.answered, fun call => ?_, ?_⟩
  · exact fun key entry hlookup => hinStep.iterator hlookup
  · rw [← hinStep.perm_keys.length_eq, OcrCache.lruKeys, List.length_map]
    exact hm.wellFormed.bounded
  · rw [hm.lruKeys_eq, hm.follows.keys_eq]
  · exact fun key entry hlookup => hm.follows.find?_eq (by rw [hm.find?_eq, hlookup]; rfl)
  · rcases run_cases call c with ⟨e, s, hrun, hfails⟩ |
      ⟨encoded, evidence, s, c', hencodes, hfound, hrun⟩ |
      ⟨encoded, evidence, s, hencodes, hmiss, hanswers, hrun⟩
    · exact Or.inl ⟨e, s, hrun, fun encoded h => hm.notMem_of_miss (hfails encoded h).1⟩
    · obtain ⟨hlast, hlog, -⟩ := hinv.hit hfound
      exact Or.inr ⟨encoded, evidence, s, c', hencodes, hrun, Or.inl ⟨hlast, hlog⟩⟩
    · exact Or.inr ⟨encoded, evidence, s, _, hencodes, hrun, Or.inr
        ⟨hm.notMem_of_miss hmiss, hanswers, hm.storeCached_of_miss hmiss evidence⟩⟩
  · intro f call evidence s c' hworker hdigest hrun plain
    exact transparent hworker hdigest hinv hrun plain

/-! ### A worker that reads its payload -/

/-- A worker that reads its payload as the plate. -/
def echoAdapter : PaddleOcrAdapter Frozen ℚ where
  config := {}
  encoder := ⟨fun plate _ => pure { bytes := plate.bytes }⟩
  worker := ⟨fun s => (true, s), fun request _ => pure ⟨[⟨request.payload, 1, 1, true⟩]⟩⟩
  accepted := by decide

def echoCall (plate : Text) : PaddleOcrCall Frozen :=
  ⟨Frozen.frozen, ⟨plate, plate.length, 1, plate.length, .gray8⟩, ⟨none⟩⟩

/-- Two calls on different images. -/
def echoCalls : List (PaddleOcrCall Frozen) := [echoCall (ascii "A"), echoCall (ascii "B")]

theorem digestInjective_echo :
    echoAdapter.DigestInjective (echoCalls ++ [echoCall (ascii "A")]) := by
  have hne : sha256Hex (ascii "A") ≠ sha256Hex (ascii "B") := by decide +kernel
  have hbytes : ∀ call ∈ echoCalls ++ [echoCall (ascii "A")], ∀ p, echoAdapter.Encodes call p →
      p.bytes = ascii "A" ∨ p.bytes = ascii "B" := by
    rintro call hcall p ⟨s, hs⟩
    simp only [echoCalls, List.cons_append, List.nil_append, List.mem_cons, List.not_mem_nil,
      or_false] at hcall
    rcases hcall with rfl | rfl | rfl
    · exact Or.inl (by cases hs; rfl)
    · exact Or.inr (by cases hs; rfl)
    · exact Or.inl (by cases hs; rfl)
  intro a ha b hb p q hp hq h
  rcases hbytes a ha p hp with hpa | hpb <;> rcases hbytes b hb q hq with hqa | hqb
  · rw [hpa, hqa]
  · exact absurd (by rwa [hpa, hqb] at h) hne
  · exact absurd (by rw [hpb, hqa] at h; exact h.symm) hne
  · rw [hpb, hqb]

theorem workerIsFunction_echo :
    echoAdapter.WorkerIsFunction fun payload => ⟨[⟨payload, 1, 1, true⟩]⟩ := by
  rintro _ response ⟨request, context, s, s', rfl, h⟩
  cases h
  rfl

/-- The cache an adapter has after the two calls. -/
def echoCache (adapter : PaddleOcrAdapter Frozen ℚ) : OcrCache (RecognitionEvidence ℚ ℚ) :=
  adapter.afterCalls echoCalls

/-- The third call hits what the first one stored, and an adapter without a cache answers it as
well. -/
theorem cache_refines_lru_echo : ∃ evidence s c',
    echoAdapter.run (echoCall (ascii "A")) (echoCache echoAdapter) = .ok evidence (s, c') ∧
    evidence.candidates.map PlateCandidate.text = [ascii "A"] ∧
    ((∃ latencyMs t, echoAdapter.withoutCache.run (echoCall (ascii "A"))
        (echoCache echoAdapter.withoutCache) =
          .ok { evidence with latencyMs := latencyMs } (t, echoCache echoAdapter.withoutCache)) ∨
      ∃ e t encoded, echoAdapter.withoutCache.run (echoCall (ascii "A"))
          (echoCache echoAdapter.withoutCache) =
            .error e (t, echoCache echoAdapter.withoutCache) ∧
        echoAdapter.Encodes (echoCall (ascii "A")) encoded ∧
        (IsInterruption e ∨ echoAdapter.WorkerThrows encoded.bytes e)) := by
  have htexts : ((echoAdapter.recognize (echoCall (ascii "A")).plate ⟨none⟩).returned?
      (Frozen.frozen, echoCache echoAdapter)).map (fun evidence =>
          evidence.candidates.map PlateCandidate.text) = some [ascii "A"] := by
    decide +kernel
  obtain ⟨evidence, hreturned, htexts⟩ := Option.map_eq_some_iff.mp htexts
  obtain ⟨⟨s, c'⟩, hrun⟩ := returned?_eq_some.mp hreturned
  exact ⟨evidence, s, c', hrun, htexts, (cache_refines_lru echoAdapter echoCalls).2.2.2.2 _ _
    evidence s c' workerIsFunction_echo digestInjective_echo hrun⟩

end PaddleOcrAdapter

end FacLpr
