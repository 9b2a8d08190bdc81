import Mathlib
import Zenith.Gateway.StreamAccounting
import Zenith.Lib.Encoding
import Zenith.Lib.EventStream

/-!
# What the client reads of a proxied stream

`UsageStream` forwards chunks as they come and puts two things of its own between them: heartbeats
while the upstream is silent, and a `response.failed` event when the stream breaks. A client that
reads the result as an event stream gets the events of the upstream and then the failure, if nothing
is put inside an event (`transparent_of_boundary`). The stream does not look where it is in an event,
though: `heartbeat_splits_event` has a heartbeat in the middle of one.
-/

namespace Zenith.Gateway

open Zenith.Bytes Zenith.EventStream Zenith.Framing Zenith.Protocol

/-! ## What is sent -/

/-- The bytes that a poll gives. -/
def Polled.sent : Polled → List UInt8
  | .bytes sent => sent
  | _ => []

/-- The bytes that the client has after some polls. -/
def delivered (serde : Json.Serde) (classifier : Classifier) (s : UsageStream)
    (inputs : List (Nat × Upstream)) : List UInt8 :=
  ((s.yields serde classifier inputs).map Polled.sent).flatten

/-- An event that cannot be read, or that is too large. -/
def invalidEvent (serde : Json.Serde) (classifier : Classifier) (event : List UInt8) : Bool :=
  decide (maxSseEventBytes < event.length) ||
    ((parseSseEvent serde classifier event).hasData && !(parseSseEvent serde classifier event).valid)

/-- The first event that ends the stream is invalid. -/
def firstInvalid (serde : Json.Serde) (classifier : Classifier) (frames : List (List UInt8)) : Bool :=
  (frames.find? fun event => (decisive serde classifier event).isSome).any
    (invalidEvent serde classifier)

/-- The events that a chunk completes. -/
def completedBy (pending bytes : List UInt8) : List (List UInt8) :=
  (Framing.push eventEnd (fun frames frame => frames ++ [frame]) (fun _ => false)
    { core := [], pending } bytes).core

/-- The upstream breaks the stream. -/
def Upstream.fails (serde : Json.Serde) (classifier : Classifier) (pending : List UInt8) :
    Upstream → Bool
  | .chunk bytes => decide (maxSseEventBytes < pending.length + bytes.length) ||
      firstInvalid serde classifier (completedBy pending bytes)
  | .error => true
  | .ended => true
  | .pending idle _ => idle

/-- A heartbeat is due. -/
def Upstream.beats : Upstream → Bool
  | .pending false true => true
  | _ => false

/-- Whatever is put into the stream comes when no event was begun. -/
def AtBoundaries (serde : Json.Serde) (classifier : Classifier) (s : UsageStream)
    (inputs : List (Nat × Upstream)) : Prop :=
  ∀ before input after, inputs = before ++ input :: after →
    (s.run serde classifier before).core.terminated = false →
    (input.2.fails serde classifier (s.run serde classifier before).pending ||
      input.2.beats) = true →
    (s.run serde classifier before).pending = []

/-! ## Frames -/

/-- The bytes of complete frames leave the client between two events. -/
theorem clean_of_frame {frame : List UInt8} {buffer : List UInt8} {n : Nat}
    (hn : eventEnd buffer = some n) (hframe : frame = buffer.take n) (bytes : List UInt8) :
    Clean (read {} (bytes ++ frame)) := by
  have hboundary : [newline, newline] <:+ frame ∨
      [carriageReturn, newline, carriageReturn, newline] <:+ frame := by
    rw [eventEnd, Option.or_eq_some_iff] at hn
    rcases hn with hlf | ⟨-, hcrlf⟩
    · obtain ⟨m, hm, rfl⟩ := Option.map_eq_some_iff.mp hlf
      rw [hframe]
      exact .inl (findInfix_suffix hm)
    · obtain ⟨m, hm, rfl⟩ := Option.map_eq_some_iff.mp hcrlf
      rw [hframe]
      exact .inr (findInfix_suffix hm)
  rcases hboundary with ⟨front, rfl⟩ | ⟨front, rfl⟩
  · rw [← List.append_assoc, read_append]
    exact clean_of_newlines _ (line_of_afterReturn _)
  · rw [← List.append_assoc, read_append]
    exact clean_of_returns _

/-- When nothing is pending, the chunks end between two events. -/
theorem clean_of_restOf {chunks : List (List UInt8)} (h : restOf eventEnd chunks = []) :
    Clean (read {} chunks.flatten) := by
  have hflatten := framesOf_flatten eventEnd chunks
  rw [h, List.append_nil] at hflatten
  rw [← hflatten]
  rcases List.eq_nil_or_concat' (framesOf eventEnd chunks) with hnil | ⟨front, frame, hframes⟩
  · rw [hnil]
    exact clean_start
  · have hmem : frame ∈ framesOf eventEnd chunks := by
      rw [hframes]
      exact List.mem_append_right _ (List.mem_singleton_self frame)
    obtain ⟨buffer, n, hn, hframe⟩ := mem_framesOf hmem
    rw [hframes, List.flatten_append, List.flatten_singleton]
    exact clean_of_frame hn hframe _

theorem read_heartbeat {r : Reader} (h : Clean r) : read r sseHeartbeat = r := by
  have hbytes : sseHeartbeat = colon :: utf8 " keep-alive" ++ [newline, newline] := by
    decide +kernel
  rw [hbytes]
  exact read_comment h (plain_of_all (by decide +kernel))

/-- The lines of a failure event. -/
def failureLines (serde : Json.Serde) (payload : Json) : List (List UInt8) :=
  [utf8 "event: response.failed", utf8 "data: " ++ utf8 (serde.toString payload)]

/-- The texts of a printer have no line ends: they are escaped in strings. -/
def OneLine (serde : Json.Serde) : Prop := ∀ value, Plain (utf8 (serde.toString value))

theorem failureFrame_eq (serde : Json.Serde) (s : UsageCore) (event : UsageEvent) (category : String) :
    s.failureFrame serde event category =
      written (failureLines serde (s.failurePayload event category)) := by
  have hhead : utf8 "event: response.failed\ndata: " =
      utf8 "event: response.failed" ++ newline :: utf8 "data: " := by
    rw [show "event: response.failed\ndata: " = "event: response.failed" ++ ("\n" ++ "data: ") by decide +kernel,
      utf8_append, utf8_append]
    rfl
  have htail : utf8 "\n\n" = [newline, newline] := by decide +kernel
  rw [UsageCore.failureFrame, hhead, htail, written, failureLines]
  simp

variable {serde : Json.Serde}

theorem read_failure (hserde : OneLine serde) {r : Reader} (h : Clean r)
    (payload : Json) :
    read r (written (failureLines serde payload)) =
      { r with events := r.events ++ [failureLines serde payload] } := by
  refine read_event h ?_ (List.cons_ne_nil _ _)
  intro line hline
  rcases List.mem_cons.mp hline with rfl | hline
  · have hbytes : utf8 "event: response.failed" = _ := utf8_ofList _
    rw [hbytes]
    exact ⟨plain_of_all (by decide +kernel), by decide +kernel, by decide +kernel⟩
  · rw [List.mem_singleton.mp hline]
    refine ⟨Plain.append (plain_of_all (by decide +kernel)) (hserde payload), ?_, ?_⟩
    · have hdata : utf8 "data: " = 100 :: utf8 "ata: " := by decide +kernel
      rw [hdata]
      exact List.cons_ne_nil _ _
    · have hdata : utf8 "data: " = 100 :: utf8 "ata: " := by decide +kernel
      rw [hdata]
      exact (by decide : (some (100 : UInt8)) ≠ some colon)

/-! ## Failures -/

/-- The frame that waits when a stream fails. -/
def FailureWaits (serde : Json.Serde) (s : UsageCore) : Prop :=
  ∃ payload, s.outputPending = [written (failureLines serde payload)]

/-- A client of the Responses API. -/
def ForResponses (s : UsageCore) : Prop := ∀ event, s.event = some event → event.wireApi = .responses

section
variable {serde : Json.Serde} {classifier : Classifier} {elapsed : Nat} {s : UsageCore}

theorem failStream_waits (h : Running s) (hwire : ForResponses s) (category : String) :
    FailureWaits serde (s.failStream serde elapsed category).1 := by
  obtain ⟨event, hevent, -⟩ := h.event
  refine ⟨s.failurePayload event category, ?_⟩
  unfold UsageCore.failStream UsageCore.queueResponsesFailure
  simp [hevent, hwire event hevent, finish_outputPending, h.outputPending, failureFrame_eq]

theorem forResponses_observe (h : ForResponses s) (terminal : TerminalEvent) :
    ForResponses (s.observe elapsed terminal) := by
  intro event hevent
  obtain ⟨before, hbefore, rfl⟩ := Option.map_eq_some_iff.mp hevent
  have hwire := h before hbefore
  cases terminal.usage <;> exact hwire

theorem finish_event (s : UsageCore) (elapsed : Nat) (success : Option Bool)
    (category : Option String) : (s.finish elapsed success category).event = none := by
  unfold UsageCore.finish
  split
  next h => exact h
  next => rfl

theorem forResponses_of_none (h : s.event = none) : ForResponses s := by
  intro event hevent
  rw [h] at hevent
  exact nomatch hevent

theorem captureNativeResponse_outputPending (s : UsageCore) (response : Option Json) :
    (s.captureNativeResponse response).outputPending = s.outputPending := by
  unfold UsageCore.captureNativeResponse
  split <;> rfl

/-- An event leaves a failure waiting exactly if it is invalid. -/
theorem handleEvent_waits (h : Running s) (hwire : ForResponses s) (event : List UInt8) :
    (invalidEvent serde classifier event = true →
      FailureWaits serde (s.handleEvent serde classifier elapsed event)) ∧
    (invalidEvent serde classifier event = false →
      (s.handleEvent serde classifier elapsed event).outputPending = []) ∧
    ForResponses (s.handleEvent serde classifier elapsed event) := by
  unfold UsageCore.handleEvent invalidEvent
  split
  next hlarge =>
    refine ⟨fun _ => failStream_waits h hwire _, fun hvalid => ?_, ?_⟩
    · simp [hlarge] at hvalid
    · exact forResponses_of_none (h.failStream _).event
  next hsmall =>
    generalize parseSseEvent serde classifier event = terminal
    unfold UsageCore.handleTerminalEvent
    split
    next hinvalid =>
      refine ⟨fun _ => failStream_waits h hwire _, fun hvalid => ?_, ?_⟩
      · simp [hinvalid] at hvalid
      · exact forResponses_of_none (h.failStream _).event
    next hvalid =>
      refine ⟨fun hinvalid => ?_, fun _ => ?_, ?_⟩
      · simp only [hsmall, decide_false, Bool.false_or] at hinvalid
        exact absurd hinvalid hvalid
      · have hseen : (s.observe elapsed terminal).outputPending = [] := h.outputPending
        dsimp only
        split <;> simp [finish_outputPending, captureNativeResponse_outputPending, hseen]
      · dsimp only
        split
        next => exact forResponses_of_none (finish_event _ _ _ _)
        next => exact forResponses_of_none (finish_event _ _ _ _)
        next => exact forResponses_of_none (finish_event _ _ _ _)
        next => exact forResponses_observe hwire terminal

/-- What waits after the events of a chunk. -/
structure Waiting (serde : Json.Serde) (classifier : Classifier) (s : UsageCore)
    (frames : List (List UInt8)) : Prop where
  phase : Phase s (verdict serde classifier frames)
  forResponses : ForResponses s
  failure : firstInvalid serde classifier frames = true → FailureWaits serde s
  quiet : firstInvalid serde classifier frames = false → s.outputPending = []

variable {frames : List (List UInt8)}

theorem verdict_eq_none_iff :
    verdict serde classifier frames = none ↔
      (frames.find? fun event => (decisive serde classifier event).isSome) = none := by
  rw [List.find?_eq_none, verdict, List.findSome?_eq_none_iff]
  simp

theorem invalidEvent_decisive {event : List UInt8} (h : invalidEvent serde classifier event = true) :
    (decisive serde classifier event).isSome = true := by
  unfold invalidEvent at h
  unfold decisive
  split
  next => rfl
  next hsmall =>
    simp only [hsmall, decide_false, Bool.false_or] at h
    simp only [h, if_true]
    rfl

/-- An invalid event has ended the stream. -/
theorem Waiting.terminated (h : Waiting serde classifier s frames)
    (hinvalid : firstInvalid serde classifier frames = true) : s.terminated = true := by
  have hphase := h.phase
  cases hverdict : verdict serde classifier frames with
  | none =>
    rw [firstInvalid, verdict_eq_none_iff.mp hverdict] at hinvalid
    exact nomatch hinvalid
  | some success =>
    rw [hverdict] at hphase
    exact Finished.terminated hphase

theorem tracked_waiting (serde : Json.Serde) (classifier : Classifier) (elapsed : Nat) :
    Tracked (UsageCore.handleEvent serde classifier elapsed) UsageCore.terminated
      (Waiting serde classifier) := by
  have hphase := tracked_phase serde classifier elapsed
  constructor
  · intro s frames frame h hs
    obtain ⟨hnone, hrunning⟩ := h.phase.running hs
    obtain ⟨hinvalid, hvalid, hwire⟩ :=
      @handleEvent_waits serde classifier elapsed s hrunning h.forResponses frame
    have hfirst : firstInvalid serde classifier (frames ++ [frame]) =
        invalidEvent serde classifier frame := by
      rw [firstInvalid, List.find?_append, verdict_eq_none_iff.mp hnone, Option.none_or]
      by_cases hdecisive : (decisive serde classifier frame).isSome = true
      · simp [List.find?, hdecisive]
      · have hno : invalidEvent serde classifier frame = false :=
          Bool.eq_false_of_not_eq_true fun hi => hdecisive (invalidEvent_decisive hi)
        rw [Bool.not_eq_true] at hdecisive
        simp [List.find?, hdecisive, hno]
    exact ⟨hphase.frame s frames frame h.phase hs, hwire, fun hi => hinvalid (hfirst ▸ hi),
      fun hi => hvalid (hfirst ▸ hi)⟩
  · intro s frames frame h hs
    have hsome : (frames.find? fun event => (decisive serde classifier event).isSome).isSome := by
      rw [Option.isSome_iff_ne_none]
      intro hnone
      have hrunning : Phase s (verdict serde classifier frames) := h.phase
      rw [verdict_eq_none_iff.mpr hnone] at hrunning
      have hfalse : s.terminated = false := Running.terminated hrunning
      rw [hs] at hfalse
      exact nomatch hfalse
    have hfirst : firstInvalid serde classifier (frames ++ [frame]) =
        firstInvalid serde classifier frames := by
      rw [firstInvalid, List.find?_append, Option.or_of_isSome hsome, firstInvalid]
    exact ⟨hphase.ended s frames frame h.phase hs, h.forResponses, fun hi => h.failure (hfirst ▸ hi),
      fun hi => h.quiet (hfirst ▸ hi)⟩

end

/-! ## Polls -/

section
variable {serde : Json.Serde} {classifier : Classifier} {inputs : List (Nat × Upstream)}
  {s : UsageStream}

theorem afterFailure_waits {s : UsageStream} (h : FailureWaits serde s.core)
    (hterminated : s.core.terminated = true) (otherwise : Polled) :
    (∃ payload, (s.afterFailure otherwise).2 = .bytes (written (failureLines serde payload))) ∧
      (s.afterFailure otherwise).1.core.terminated = true := by
  obtain ⟨payload, hpayload⟩ := h
  rw [UsageStream.afterFailure, UsageStream.popOutput, hpayload]
  exact ⟨⟨payload, rfl⟩, hterminated⟩

/-- What waits after a chunk that fits. -/
theorem Reading.waiting (h : Reading serde classifier inputs s) (hwire : ForResponses s.core)
    (elapsed : Nat) (bytes : List UInt8) :
    Waiting serde classifier
      (Framing.push eventEnd (UsageCore.handleEvent serde classifier elapsed) UsageCore.terminated s
        bytes).core
      (completedBy s.pending bytes) := by
  have hstart : Tracks UsageCore.terminated (Waiting serde classifier) s
      { core := [], pending := s.pending } :=
    ⟨⟨h.running, hwire, nofun, fun _ => h.running.outputPending⟩, .inr rfl⟩
  exact ((tracked_waiting serde classifier elapsed).push eventEnd hstart bytes).1

variable {input : Nat × Upstream}

/-- A break of the stream gives a failure frame and ends it. -/
theorem poll_fails (h : Reading serde classifier inputs s) (hwire : ForResponses s.core)
    (hfails : input.2.fails serde classifier s.pending = true) :
    (∃ payload, (s.pollNext serde classifier input.1 input.2).2 =
      .bytes (written (failureLines serde payload))) ∧
    (s.pollNext serde classifier input.1 input.2).1.core.terminated = true := by
  obtain ⟨elapsed, upstream⟩ := input
  obtain ⟨event, hevent, hsuccess⟩ := h.running.event
  have hwaits : ∀ category, FailureWaits serde (s.core.failStream serde elapsed category).1 :=
    failStream_waits h.running hwire
  rw [UsageStream.pollNext, h.popOutput]
  simp only [h.running.terminated, Bool.false_eq_true, if_false]
  cases upstream with
  | chunk bytes =>
    simp only [UsageStream.pollUpstream, UsageStream.ingest, h.running.terminated,
      h.running.native, Bool.false_eq_true, if_false]
    split
    next => exact afterFailure_waits (hwaits _) rfl _
    next hsmall =>
      have hinvalid : firstInvalid serde classifier (completedBy s.pending bytes) = true := by
        simpa [Upstream.fails, hsmall] using hfails
      have hwaiting := h.waiting hwire elapsed bytes
      refine afterFailure_waits (hwaiting.failure hinvalid) ?_ _
      exact hwaiting.terminated hinvalid
  | error => exact afterFailure_waits (hwaits _) rfl _
  | ended =>
    simp only [UsageStream.pollUpstream, UsageStream.upstreamEnded, h.running.native, hevent,
      Option.any_some, hsuccess, if_true, Bool.false_eq_true, if_false]
    exact afterFailure_waits (hwaits _) rfl _
  | pending idle heartbeat =>
    have hidle : idle = true := hfails
    rw [hidle]
    exact afterFailure_waits (hwaits _) rfl _

/-- Otherwise the poll gives what the upstream gave, or a heartbeat. -/
theorem poll_forwards (h : Reading serde classifier inputs s) (hwire : ForResponses s.core)
    (hfails : input.2.fails serde classifier s.pending = false) :
    (s.pollNext serde classifier input.1 input.2).2.sent =
      (if input.2.beats then sseHeartbeat else input.2.chunk?.getD []) ∧
    ForResponses (s.pollNext serde classifier input.1 input.2).1.core := by
  obtain ⟨elapsed, upstream⟩ := input
  rw [UsageStream.pollNext, h.popOutput]
  simp only [h.running.terminated, Bool.false_eq_true, if_false]
  cases upstream with
  | chunk bytes =>
    obtain ⟨hsmall, hvalid⟩ : ¬ maxSseEventBytes < s.pending.length + bytes.length ∧
        firstInvalid serde classifier (completedBy s.pending bytes) = false := by
      simpa [Upstream.fails] using hfails
    have hwaiting := h.waiting hwire elapsed bytes
    simp only [UsageStream.pollUpstream, UsageStream.ingest, h.running.terminated,
      h.running.native, Bool.false_eq_true, if_false, hsmall]
    rw [UsageStream.afterFailure, UsageStream.popOutput, hwaiting.quiet hvalid]
    exact ⟨rfl, hwaiting.forResponses⟩
  | error => cases hfails
  | ended => cases hfails
  | pending idle heartbeat =>
    obtain rfl : idle = false := hfails
    cases heartbeat with
    | true => exact ⟨rfl, hwire⟩
    | false => exact ⟨rfl, hwire⟩

end

/-! ## Runs -/

section
variable (serde : Json.Serde) (classifier : Classifier)

/-- The stream broke at some poll. -/
def Broken (s : UsageStream) (inputs : List (Nat × Upstream)) : Prop :=
  ∃ before input after, inputs = before ++ input :: after ∧
    (s.run serde classifier before).core.terminated = false ∧
    input.2.fails serde classifier (s.run serde classifier before).pending = true

theorem run_concat (s : UsageStream) (inputs : List (Nat × Upstream)) (input : Nat × Upstream) :
    s.run serde classifier (inputs ++ [input]) =
      ((s.run serde classifier inputs).pollNext serde classifier input.1 input.2).1 := by
  rw [UsageStream.run, List.foldl_concat]
  rfl

theorem delivered_concat (s : UsageStream) (inputs : List (Nat × Upstream)) (input : Nat × Upstream) :
    delivered serde classifier s (inputs ++ [input]) =
      delivered serde classifier s inputs ++
        ((s.run serde classifier inputs).pollNext serde classifier input.1 input.2).2.sent := by
  have hyields : s.yields serde classifier (inputs ++ [input]) =
      s.yields serde classifier inputs ++
        [((s.run serde classifier inputs).pollNext serde classifier input.1 input.2).2] := by
    induction inputs generalizing s with
    | nil => rfl
    | cons first inputs ih =>
      rw [List.cons_append, UsageStream.yields, ih, UsageStream.yields]
      rfl
  rw [delivered, hyields, List.map_append, List.flatten_append]
  simp [delivered]

/-- A property of the splits of a longer run: those of the run, and the last one. -/
theorem splits_concat {P : List (Nat × Upstream) → Nat × Upstream → Prop}
    (inputs : List (Nat × Upstream)) (input : Nat × Upstream) :
    (∃ before i after, inputs ++ [input] = before ++ i :: after ∧ P before i) ↔
      (∃ before i after, inputs = before ++ i :: after ∧ P before i) ∨ P inputs input := by
  constructor
  · rintro ⟨before, i, after, heq, hP⟩
    rcases List.eq_nil_or_concat' after with rfl | ⟨after, last, rfl⟩
    · obtain ⟨rfl, hi⟩ := List.append_inj' heq rfl
      obtain rfl : input = i := by simpa using hi
      exact .inr hP
    · rw [← List.cons_append, ← List.append_assoc] at heq
      obtain ⟨rfl, -⟩ := List.append_inj' heq rfl
      exact .inl ⟨before, i, after, rfl, hP⟩
  · rintro (⟨before, i, after, rfl, hP⟩ | hP)
    · exact ⟨before, i, after ++ [input], by simp, hP⟩
    · exact ⟨inputs, input, [], rfl, hP⟩

theorem broken_concat (s : UsageStream) (inputs : List (Nat × Upstream)) (input : Nat × Upstream) :
    Broken serde classifier s (inputs ++ [input]) ↔
      Broken serde classifier s inputs ∨
        ((s.run serde classifier inputs).core.terminated = false ∧
          input.2.fails serde classifier (s.run serde classifier inputs).pending = true) := by
  exact splits_concat inputs input

end

/-- The client has read what the upstream sent. -/
structure Forwarding (serde : Json.Serde) (classifier : Classifier) (s₀ : UsageStream)
    (inputs : List (Nat × Upstream)) : Prop where
  reading : Reading serde classifier inputs (s₀.run serde classifier inputs)
  forResponses : ForResponses (s₀.run serde classifier inputs).core
  unbroken : ¬ Broken serde classifier s₀ inputs
  same : read {} (delivered serde classifier s₀ inputs) = read {} (chunksOf inputs).flatten

/-- The client has read a part of what the upstream sent, and the failure if there was one. -/
structure Closed (serde : Json.Serde) (classifier : Classifier) (s₀ : UsageStream)
    (inputs : List (Nat × Upstream)) : Prop where
  accounted : Accounted serde classifier inputs (s₀.run serde classifier inputs)
  events : ∃ sent failed, sent <+: (chunksOf inputs).flatten ∧
    eventsOf (delivered serde classifier s₀ inputs) = eventsOf sent ++ failed ∧
    (Broken serde classifier s₀ inputs → ∃ payload, failed = [failureLines serde payload]) ∧
    (¬ Broken serde classifier s₀ inputs → failed = [])

section
variable {serde : Json.Serde} {classifier : Classifier} {inputs : List (Nat × Upstream)}
  {s₀ : UsageStream}

variable {input : Nat × Upstream}

theorem AtBoundaries.of_concat (h : AtBoundaries serde classifier s₀ (inputs ++ [input])) :
    AtBoundaries serde classifier s₀ inputs := by
  intro before i after heq
  exact h before i (after ++ [input]) (by rw [heq]; simp)

theorem chunksOf_concat (inputs : List (Nat × Upstream)) (input : Nat × Upstream) :
    (chunksOf (inputs ++ [input])).flatten =
      (chunksOf inputs).flatten ++ input.2.chunk?.getD [] := by
  cases h : input.2.chunk? <;> simp [chunksOf, h]

theorem beats_chunk {upstream : Upstream} (h : upstream.beats = true) : upstream.chunk? = none := by
  unfold Upstream.beats at h
  split at h
  next => rfl
  next => exact nomatch h

theorem Forwarding.poll (hserde : OneLine serde) (h : Forwarding serde classifier s₀ inputs)
    (hboundary : AtBoundaries serde classifier s₀ (inputs ++ [input])) :
    Forwarding serde classifier s₀ (inputs ++ [input]) ∨
      Closed serde classifier s₀ (inputs ++ [input]) := by
  have hclean : (input.2.fails serde classifier (s₀.run serde classifier inputs).pending ||
      input.2.beats) = true → Clean (read {} (delivered serde classifier s₀ inputs)) := by
    intro hput
    have hpending := hboundary inputs input [] rfl h.reading.running.terminated hput
    rw [h.reading.pending] at hpending
    rw [h.same]
    exact clean_of_restOf hpending
  cases hfails : input.2.fails serde classifier (s₀.run serde classifier inputs).pending with
  | true =>
    obtain ⟨⟨payload, hpolled⟩, hterminated⟩ := poll_fails h.reading h.forResponses hfails
    have hbroken : Broken serde classifier s₀ (inputs ++ [input]) :=
      (broken_concat serde classifier s₀ inputs input).mpr (.inr ⟨h.reading.running.terminated, hfails⟩)
    have hsent : eventsOf (delivered serde classifier s₀ (inputs ++ [input])) =
        eventsOf (chunksOf inputs).flatten ++ [failureLines serde payload] := by
      rw [delivered_concat, hpolled, Polled.sent, eventsOf, read_append,
        read_failure hserde (hclean (by rw [hfails]; rfl)), h.same]
      rfl
    have haccounted : Accounted serde classifier (inputs ++ [input])
        (s₀.run serde classifier (inputs ++ [input])) := by
      rw [run_concat]
      refine (h.reading.poll input).resolve_left fun hreading => ?_
      rw [hreading.running.terminated] at hterminated
      cases hterminated
    refine .inr ⟨haccounted, (chunksOf inputs).flatten, [failureLines serde payload], ?_, hsent,
      fun _ => ⟨payload, rfl⟩, fun hunbroken => absurd hbroken hunbroken⟩
    rw [chunksOf_concat]
    exact List.prefix_append _ _
  | false =>
    obtain ⟨hsent, hwire⟩ := poll_forwards h.reading h.forResponses hfails
    have hunbroken : ¬ Broken serde classifier s₀ (inputs ++ [input]) := by
      rw [broken_concat, hfails]
      rintro (hold | ⟨-, hnew⟩)
      · exact h.unbroken hold
      · cases hnew
    have hsame : read {} (delivered serde classifier s₀ (inputs ++ [input])) =
        read {} (chunksOf (inputs ++ [input])).flatten := by
      rw [delivered_concat, chunksOf_concat, hsent, read_append, read_append]
      cases hbeats : input.2.beats with
      | true =>
        rw [if_pos rfl, read_heartbeat (hclean (by rw [hbeats, Bool.or_true])), beats_chunk hbeats,
          h.same]
        rfl
      | false => rw [if_neg Bool.false_ne_true, h.same]
    rcases h.reading.poll input with hreading | haccounted
    · rw [← run_concat] at hreading hwire
      exact .inl ⟨hreading, hwire, hunbroken, hsame⟩
    · rw [← run_concat] at haccounted
      refine .inr ⟨haccounted, (chunksOf (inputs ++ [input])).flatten, [], List.prefix_rfl, ?_,
        fun hbroken => absurd hbroken hunbroken, fun _ => rfl⟩
      rw [eventsOf, hsame, List.append_nil]
      rfl

theorem Closed.poll (h : Closed serde classifier s₀ inputs) (input : Nat × Upstream) :
    Closed serde classifier s₀ (inputs ++ [input]) := by
  obtain ⟨hpoll, haccounted⟩ := h.accounted.poll input
  obtain ⟨sent, failed, hlead, hevents, hbroken, hunbroken⟩ := h.events
  have hterminated : (s₀.run serde classifier inputs).core.terminated = true := by
    obtain ⟨success, hfinished, -⟩ := h.accounted.finished
    exact hfinished.terminated
  have hiff : Broken serde classifier s₀ (inputs ++ [input]) ↔ Broken serde classifier s₀ inputs := by
    rw [broken_concat, hterminated]
    simp
  refine ⟨?_, sent, failed, ?_, ?_, ?_, ?_⟩
  · rw [run_concat, hpoll]
    exact haccounted
  · rw [chunksOf_concat]
    exact hlead.trans (List.prefix_append _ _)
  · rw [delivered_concat, hpoll]
    show eventsOf (_ ++ []) = _
    rw [List.append_nil]
    exact hevents
  · rw [hiff]
    exact hbroken
  · rw [hiff]
    exact hunbroken

theorem forwarding_or_closed (hserde : OneLine serde) {event : UsageEvent} (capturesResponse : Bool)
    (hwire : event.wireApi = .responses) (hsuccess : event.success = true)
    (h : AtBoundaries serde classifier (UsageStream.new event capturesResponse) inputs) :
    Forwarding serde classifier (UsageStream.new event capturesResponse) inputs ∨
      Closed serde classifier (UsageStream.new event capturesResponse) inputs := by
  induction inputs using List.reverseRecOn with
  | nil =>
    refine .inl ⟨reading_new capturesResponse ?_ hsuccess, ?_, ?_, rfl⟩
    · rw [hwire]
      decide
    · rintro other ⟨⟩
      exact hwire
    · rintro ⟨before, input, after, hnil, -⟩
      simp at hnil
  | append_singleton inputs input ih =>
    rcases ih h.of_concat with hforwarding | hclosed
    · exact hforwarding.poll hserde h
    · exact .inr (hclosed.poll input)

end

/-- If nothing is put inside an event, the client reads a part of the upstream's events, and then
the failure event if the stream broke. -/
theorem transparent_of_boundary {serde : Json.Serde} (hserde : OneLine serde)
    (classifier : Classifier) {event : UsageEvent} (capturesResponse : Bool)
    (hwire : event.wireApi = .responses) (hsuccess : event.success = true)
    {inputs : List (Nat × Upstream)}
    (h : AtBoundaries serde classifier (UsageStream.new event capturesResponse) inputs) :
    ∃ events failed,
      eventsOf (delivered serde classifier (UsageStream.new event capturesResponse) inputs) =
        events ++ failed ∧
      (∀ rest, events <+: eventsOf ((chunksOf inputs).flatten ++ rest)) ∧
      (Broken serde classifier (UsageStream.new event capturesResponse) inputs →
        ∃ payload, failed = [failureLines serde payload]) ∧
      (¬ Broken serde classifier (UsageStream.new event capturesResponse) inputs → failed = []) := by
  rcases forwarding_or_closed hserde capturesResponse hwire hsuccess h with hforwarding | hclosed
  · refine ⟨eventsOf (chunksOf inputs).flatten, [], ?_, fun rest => eventsOf_append _ rest,
      fun hbroken => absurd hbroken hforwarding.unbroken, fun _ => rfl⟩
    rw [eventsOf, hforwarding.same, List.append_nil]
    rfl
  · obtain ⟨sent, failed, ⟨more, hmore⟩, hevents, hbroken, hunbroken⟩ := hclosed.events
    refine ⟨eventsOf sent, failed, hevents, fun rest => ?_, hbroken, hunbroken⟩
    rw [← hmore, List.append_assoc]
    exact eventsOf_append sent (more ++ rest)

/-! ## Streams with and without a split event -/

variable {classifier : Classifier}

theorem atBoundaries_cons {s : UsageStream}
    {input : Nat × Upstream} {inputs : List (Nat × Upstream)}
    (hfirst : s.core.terminated = false →
      (input.2.fails serde classifier s.pending || input.2.beats) = true → s.pending = [])
    (hrest : AtBoundaries serde classifier (s.pollNext serde classifier input.1 input.2).1 inputs) :
    AtBoundaries serde classifier s (input :: inputs) := by
  intro before i after heq
  cases before with
  | nil =>
    obtain ⟨rfl, -⟩ := List.cons.inj heq
    exact hfirst
  | cons first before =>
    obtain ⟨rfl, htail⟩ := List.cons.inj heq
    exact hrest before i after htail

theorem atBoundaries_nil {s : UsageStream} :
    AtBoundaries serde classifier s [] := by
  intro before i after heq
  simp at heq

/-- A printer for examples, which leaves line ends out. -/
def oneLineSerde (texts : List (String × Json)) : Json.Serde where
  fromSlice := (Json.Serde.ofTexts texts).fromSlice
  toString value := String.ofList ((Json.print value).toList.filter fun c => c ≠ '\n' && c ≠ '\r')

theorem plain_utf8EncodeChar {c : Char} (hlf : c ≠ '\n') (hcr : c ≠ '\r') :
    Plain (String.utf8EncodeChar c) := by
  have hbig : ∀ n, 128 ≤ n → n < 256 → UInt8.ofNat n ≠ newline ∧ UInt8.ofNat n ≠ carriageReturn := by
    intro n hle hlt
    constructor <;> intro heq <;> have hnat := congrArg UInt8.toNat heq <;>
      simp [newline, carriageReturn, Nat.mod_eq_of_lt hlt] at hnat <;> omega
  have hsmall : ∀ byte : Nat, c.val.toNat ≤ 127 → byte ≤ 127 →
      c.val.toNat ≠ byte → UInt8.ofNat c.val.toNat ≠ UInt8.ofNat byte := by
    intro byte hle hbyte hne heq
    have hnat := congrArg UInt8.toNat heq
    simp only [UInt8.toNat_ofNat'] at hnat
    omega
  have hval : ∀ d : Char, c ≠ d → c.val.toNat ≠ d.val.toNat := by
    intro d hne heq
    exact hne (Char.ext (UInt32.toNat_inj.mp heq))
  intro byte hbyte
  unfold String.utf8EncodeChar at hbyte
  dsimp only at hbyte
  split at hbyte
  next hle =>
    rw [List.mem_singleton.mp hbyte]
    exact ⟨hsmall 10 hle (by decide) (hval _ hlf), hsmall 13 hle (by decide) (hval _ hcr)⟩
  next =>
    split at hbyte
    next =>
      simp only [List.mem_cons, List.not_mem_nil, or_false] at hbyte
      rcases hbyte with rfl | rfl <;> exact hbig _ (by omega) (by omega)
    next =>
      split at hbyte
      next =>
        simp only [List.mem_cons, List.not_mem_nil, or_false] at hbyte
        rcases hbyte with rfl | rfl | rfl <;> exact hbig _ (by omega) (by omega)
      next =>
        simp only [List.mem_cons, List.not_mem_nil, or_false] at hbyte
        rcases hbyte with rfl | rfl | rfl | rfl <;> exact hbig _ (by omega) (by omega)

theorem oneLine_oneLineSerde (texts : List (String × Json)) : OneLine (oneLineSerde texts) := by
  intro value byte hbyte
  obtain ⟨c, hc, hmem⟩ := List.mem_flatMap.mp hbyte
  simp only [oneLineSerde, String.toList_ofList, List.mem_filter, Bool.and_eq_true,
    decide_eq_true_eq] at hc
  exact plain_utf8EncodeChar hc.2.1 hc.2.2 byte hmem

def createdText : String := "\x7b\"type\":\"response.created\"\x7d"

def createdSerde : Json.Serde :=
  oneLineSerde [(createdText, .ofFields [("type", .string "response.created")])]

def plainClassifier : Classifier := ⟨fun _ _ => none, fun _ => .null⟩

def responsesEvent : UsageEvent :=
  { requestId := "request", wireApi := .responses, success := true, httpStatus := 200 }

/-- A heartbeat between two events, then an error of the upstream. -/
def brokenInputs : List (Nat × Upstream) :=
  [(1, .chunk (utf8 ("data: " ++ createdText ++ "\n\n"))), (2, .pending false true), (3, .error)]

theorem transparent_brokenInputs :
    ∃ events failed,
      eventsOf (delivered createdSerde plainClassifier (UsageStream.new responsesEvent false)
        brokenInputs) = events ++ failed ∧
      (∀ rest, events <+: eventsOf ((chunksOf brokenInputs).flatten ++ rest)) ∧
      (Broken createdSerde plainClassifier (UsageStream.new responsesEvent false) brokenInputs →
        ∃ payload, failed = [failureLines createdSerde payload]) ∧
      (¬ Broken createdSerde plainClassifier (UsageStream.new responsesEvent false) brokenInputs →
        failed = []) :=
  transparent_of_boundary (oneLine_oneLineSerde _) plainClassifier false rfl rfl
    (atBoundaries_cons (by decide +kernel) (atBoundaries_cons (by decide +kernel)
      (atBoundaries_cons (by decide +kernel) atBoundaries_nil)))

/-- The same event in two chunks, with a heartbeat between them. -/
def splitInputs : List (Nat × Upstream) :=
  [(1, .chunk (utf8 ("data: " ++ createdText))), (2, .pending false true), (3, .chunk (utf8 "\n\n"))]

/-- The heartbeat becomes a part of the event: the client reads an event that the upstream never
sent. -/
theorem heartbeat_splits_event :
    ¬ ∃ events failed,
      eventsOf (delivered createdSerde plainClassifier (UsageStream.new responsesEvent false)
        splitInputs) = events ++ failed ∧
      events <+: eventsOf (chunksOf splitInputs).flatten ∧
      (failed = [] ∨ ∃ payload, failed = [failureLines createdSerde payload]) := by
  have hdelivered : eventsOf (delivered createdSerde plainClassifier
      (UsageStream.new responsesEvent false) splitInputs) =
        [[utf8 ("data: " ++ createdText ++ ": keep-alive")]] := by decide +kernel
  have hupstream : eventsOf (chunksOf splitInputs).flatten = [[utf8 ("data: " ++ createdText)]] := by
    decide +kernel
  rintro ⟨events, failed, heq, hlead, hfailed⟩
  rw [hdelivered] at heq
  rw [hupstream] at hlead
  cases events with
  | nil =>
    rw [List.nil_append] at heq
    rcases hfailed with hnil | ⟨payload, hpayload⟩
    · rw [hnil] at heq
      exact nomatch heq
    · rw [hpayload, failureLines] at heq
      simp at heq
  | cons first events =>
    obtain ⟨hfirst, -⟩ := List.cons.inj heq
    obtain ⟨hsame, -⟩ := List.cons_prefix_cons.mp hlead
    rw [← hfirst] at hsame
    exact absurd hsame (by decide +kernel)

end Zenith.Gateway
