import Mathlib
import Zenith.Gateway.UsageStream

/-!
# Every proxied stream is accounted once

A stream is polled any number of times and then dropped. Whatever the upstream does meanwhile, the
completion callback runs exactly once, and it reports success exactly when an event that ends the
stream well was read before anything went wrong (`completion_once`).

`verdict` is what the events of a stream say about its success, and `Phase` what a stream looks like
before and after there is a verdict. An event takes a running stream to the phase of its own verdict
(`phase_handleEvent`); `Tracked` of `Zenith.Framing` carries this over a chunk, and `Account` over
polls.
-/

namespace Zenith.Gateway

open Zenith.Bytes Zenith.Framing Zenith.Protocol

/-! ## The verdict of the events -/

/-- What an event says about the success of its stream, if it ends it. -/
def decisive (serde : Json.Serde) (classifier : Classifier) (event : List UInt8) : Option Bool :=
  if maxSseEventBytes < event.length then some false
  else
    let terminal := parseSseEvent serde classifier event
    if terminal.hasData && !terminal.valid then some false
    else terminal.outcome.map fun outcome => decide (outcome = .success)

/-- The verdict of the first event that has one. -/
def verdict (serde : Json.Serde) (classifier : Classifier) (frames : List (List UInt8)) :
    Option Bool :=
  frames.findSome? (decisive serde classifier)

/-! ## Phases of a stream -/

/-- A stream that goes on. -/
structure Running (s : UsageCore) : Prop where
  event : ∃ event, s.event = some event ∧ event.success = true
  completions : s.completions = []
  terminated : s.terminated = false
  outputPending : s.outputPending = []
  native : s.nativeGemini = false

/-- A stream that was accounted. -/
structure Finished (s : UsageCore) (success : Bool) : Prop where
  event : s.event = none
  completions : ∃ completion, s.completions = [completion] ∧ completion.event.success = success
  terminated : s.terminated = true
  outputPending : s.outputPending.length ≤ 1

def Phase (s : UsageCore) : Option Bool → Prop
  | none => Running s
  | some success => Finished s success

section
variable {serde : Json.Serde} {classifier : Classifier} {elapsed : Nat} {s : UsageCore}

theorem finish_outputPending (s : UsageCore) (elapsed : Nat) (success : Option Bool)
    (category : Option String) :
    (s.finish elapsed success category).outputPending = s.outputPending := by
  unfold UsageCore.finish
  split <;> rfl

theorem Running.finish (h : Running s) (success : Option Bool) (category : Option String) :
    Finished { s.finish elapsed success category with terminated := true } (success.getD true) := by
  obtain ⟨event, hevent, hsuccess⟩ := h.event
  refine ⟨?_, ?_, rfl, ?_⟩
  · simp [UsageCore.finish, hevent]
  · simp [UsageCore.finish, hevent, h.completions, hsuccess]
  · simp [finish_outputPending, h.outputPending]

theorem Running.failStream (h : Running s) (category : String) :
    Finished (s.failStream serde elapsed category).1 false := by
  obtain ⟨event, hevent, hsuccess⟩ := h.event
  unfold UsageCore.failStream UsageCore.queueResponsesFailure
  simp only [hevent]
  split
  next => exact h.finish (some false) _
  next =>
    refine ⟨?_, ?_, rfl, ?_⟩
    · simp [UsageCore.finish]
    · simp [UsageCore.finish, h.completions]
    · simp [finish_outputPending, h.outputPending]

theorem Running.observe (h : Running s) (terminal : TerminalEvent) :
    Running (s.observe elapsed terminal) := by
  obtain ⟨event, hevent, hsuccess⟩ := h.event
  refine ⟨?_, h.completions, h.terminated, h.outputPending, h.native⟩
  refine ⟨_, by rw [UsageCore.observe, hevent]; rfl, ?_⟩
  cases terminal.usage with
  | none => exact hsuccess
  | some usage => exact hsuccess

theorem Running.captureNativeResponse (h : Running s) (response : Option Json) :
    Running (s.captureNativeResponse response) := by
  unfold UsageCore.captureNativeResponse
  split
  · exact h
  · exact ⟨h.event, h.completions, h.terminated, h.outputPending, h.native⟩

/-- An event takes a running stream to the phase of its verdict. -/
theorem phase_handleEvent (h : Running s) (event : List UInt8) :
    Phase (s.handleEvent serde classifier elapsed event) (decisive serde classifier event) := by
  unfold UsageCore.handleEvent decisive
  split
  next => exact h.failStream _
  next =>
    dsimp only
    generalize parseSseEvent serde classifier event = terminal
    unfold UsageCore.handleTerminalEvent
    split
    next => exact h.failStream _
    next =>
      have hseen : Running (s.observe elapsed terminal) := h.observe terminal
      dsimp only
      cases terminal.outcome with
      | none => exact hseen
      | some outcome =>
        cases outcome with
        | success => exact (hseen.captureNativeResponse _).finish none none
        | incomplete => exact (hseen.captureNativeResponse _).finish (some false) _
        | failure =>
          have hhint : Running { s.observe elapsed terminal with
              cooldownHint := terminal.cooldownHint } :=
            ⟨hseen.event, hseen.completions, hseen.terminated, hseen.outputPending, hseen.native⟩
          exact hhint.finish (some false) _

theorem Phase.running {verdict : Option Bool} (h : Phase s verdict) (hs : s.terminated = false) :
    verdict = none ∧ Running s := by
  cases verdict with
  | none => exact ⟨rfl, h⟩
  | some success =>
    have hfinished : Finished s success := h
    rw [hfinished.terminated] at hs
    exact nomatch hs

/-- The phase of a stream is the verdict of the events it was given. -/
theorem tracked_phase (serde : Json.Serde) (classifier : Classifier) (elapsed : Nat) :
    Tracked (UsageCore.handleEvent serde classifier elapsed) UsageCore.terminated
      (fun s frames => Phase s (verdict serde classifier frames)) := by
  constructor
  · intro s frames frame h hs
    obtain ⟨hnone, hrunning⟩ := h.running hs
    have hverdict : verdict serde classifier (frames ++ [frame]) =
        decisive serde classifier frame := by
      rw [verdict] at hnone ⊢
      rw [List.findSome?_append, hnone]
      cases hframe : decisive serde classifier frame <;> simp [List.findSome?, hframe]
    rw [hverdict]
    exact phase_handleEvent hrunning frame
  · intro s frames frame h hs
    have hsome : verdict serde classifier frames ≠ none := by
      intro hnone
      rw [hnone] at h
      have hrunning : Running s := h
      rw [hrunning.terminated] at hs
      exact nomatch hs
    obtain ⟨success, hsuccess⟩ := Option.ne_none_iff_exists'.mp hsome
    have hverdict : verdict serde classifier (frames ++ [frame]) =
        verdict serde classifier frames := by
      rw [verdict, List.findSome?_append]
      rw [verdict] at hsuccess
      rw [verdict, hsuccess]
      rfl
    rw [hverdict]
    exact h

end

/-! ## Runs -/

namespace UsageStream

section
variable (serde : Json.Serde) (classifier : Classifier)

/-- The stream after some polls, each with its time. -/
def run (s : UsageStream) (inputs : List (Nat × Upstream)) : UsageStream :=
  inputs.foldl (fun s input => (s.pollNext serde classifier input.1 input.2).1) s

/-- What the polls give. -/
def yields (s : UsageStream) : List (Nat × Upstream) → List Polled
  | [] => []
  | input :: inputs =>
    (s.pollNext serde classifier input.1 input.2).2 ::
      yields (s.pollNext serde classifier input.1 input.2).1 inputs

end

end UsageStream

/-- The upstream goes on. -/
def Upstream.quiet : Upstream → Bool
  | .chunk _ => true
  | .pending false _ => true
  | _ => false

def Upstream.chunk? : Upstream → Option (List UInt8)
  | .chunk bytes => some bytes
  | _ => none

def chunksOf (inputs : List (Nat × Upstream)) : List (List UInt8) :=
  inputs.filterMap fun input => input.2.chunk?

/-- No chunk is too large for the buffer. -/
def Fits (chunks : List (List UInt8)) : Prop :=
  ∀ lead chunk, lead ++ [chunk] <+: chunks →
    (restOf eventEnd lead).length + chunk.length ≤ maxSseEventBytes

/-- A success event was read, and nothing went wrong before it. -/
def Succeeded (serde : Json.Serde) (classifier : Classifier) (inputs : List (Nat × Upstream)) :
    Prop :=
  ∃ lead, lead <+: inputs ∧ (∀ input ∈ lead, input.2.quiet = true) ∧ Fits (chunksOf lead) ∧
    verdict serde classifier (framesOf eventEnd (chunksOf lead)) = some true

/-- A stream that has read everything so far and goes on. -/
structure Reading (serde : Json.Serde) (classifier : Classifier) (inputs : List (Nat × Upstream))
    (s : UsageStream) : Prop where
  running : Running s.core
  quiet : ∀ input ∈ inputs, input.2.quiet = true
  fits : Fits (chunksOf inputs)
  undecided : verdict serde classifier (framesOf eventEnd (chunksOf inputs)) = none
  pending : s.pending = restOf eventEnd (chunksOf inputs)

/-- A stream that was accounted as it should, whatever comes after. -/
structure Accounted (serde : Json.Serde) (classifier : Classifier) (inputs : List (Nat × Upstream))
    (s : UsageStream) : Prop where
  finished : ∃ success, Finished s.core success ∧
    ∀ more, success = true ↔ Succeeded serde classifier (inputs ++ more)
  outputPending : s.core.outputPending = []

section
variable {serde : Json.Serde} {classifier : Classifier} {inputs : List (Nat × Upstream)}
  {s : UsageStream}

theorem verdict_lead {frames frames' : List (List UInt8)} (h : frames <+: frames') {success : Bool}
    (hverdict : verdict serde classifier frames = some success) :
    verdict serde classifier frames' = some success := by
  obtain ⟨more, rfl⟩ := h
  rw [verdict] at hverdict ⊢
  rw [List.findSome?_append, hverdict]
  rfl

theorem chunksOf_lead {lead : List (Nat × Upstream)} (h : lead <+: inputs) :
    chunksOf lead <+: chunksOf inputs := by
  obtain ⟨more, rfl⟩ := h
  rw [chunksOf, chunksOf, List.filterMap_append]
  exact List.prefix_append _ _

theorem framesOf_lead {chunks chunks' : List (List UInt8)} (h : chunks <+: chunks') :
    framesOf eventEnd chunks <+: framesOf eventEnd chunks' := by
  obtain ⟨more, rfl⟩ := h
  exact framesOf_append eventEnd chunks more

/-- While there is no verdict, no shorter run has succeeded. -/
theorem Reading.not_succeeded (h : Reading serde classifier inputs s)
    {lead : List (Nat × Upstream)} (hlead : lead <+: inputs) :
    verdict serde classifier (framesOf eventEnd (chunksOf lead)) ≠ some true := by
  intro hverdict
  have hnext := verdict_lead (framesOf_lead (chunksOf_lead hlead)) hverdict
  rw [h.undecided] at hnext
  exact nomatch hnext

variable {input : Nat × Upstream}

/-- A failure at a poll: no run that goes through it succeeds. -/
theorem Reading.failed (h : Reading serde classifier inputs s)
    (hblocked : ∀ lead, inputs ++ [input] <+: lead →
      ¬ ((∀ i ∈ lead, i.2.quiet = true) ∧ Fits (chunksOf lead) ∧
        verdict serde classifier (framesOf eventEnd (chunksOf lead)) = some true))
    (more : List (Nat × Upstream)) :
    false = true ↔ Succeeded serde classifier (inputs ++ [input] ++ more) := by
  refine ⟨fun hfalse => absurd hfalse Bool.false_ne_true, ?_⟩
  rintro ⟨lead, hlead, hquiet, hfits, hverdict⟩
  have hcases : lead <+: inputs ∨ inputs ++ [input] <+: lead := by
    rcases Nat.lt_or_ge inputs.length lead.length with hlong | hshort
    · refine .inr (List.prefix_of_prefix_length_le (List.prefix_append _ more) hlead ?_)
      rw [List.length_append, List.length_singleton]
      exact hlong
    · have hwhole : inputs <+: inputs ++ [input] ++ more := by
        rw [List.append_assoc]
        exact List.prefix_append _ _
      exact .inl (List.prefix_of_prefix_length_le hlead hwhole hshort)
  rcases hcases with hshort | hlong
  · exact (h.not_succeeded hshort hverdict).elim
  · exact (hblocked lead hlong ⟨hquiet, hfits, hverdict⟩).elim

/-- A failure without a chunk. -/
theorem Reading.failed_of_not_quiet (h : Reading serde classifier inputs s)
    (hinput : input.2.quiet = false) (more : List (Nat × Upstream)) :
    false = true ↔ Succeeded serde classifier (inputs ++ [input] ++ more) := by
  refine h.failed (fun lead hlead hgood => ?_) more
  have hmem : input ∈ lead := hlead.subset (List.mem_append_right _ (List.mem_singleton_self input))
  have hquiet := hgood.1 input hmem
  rw [hinput] at hquiet
  exact nomatch hquiet

/-- The frame of a failure is given in the same poll. -/
theorem afterFailure_finished {success : Bool} (otherwise : Polled) (h : Finished s.core success) :
    Finished (s.afterFailure otherwise).1.core success ∧
      (s.afterFailure otherwise).1.core.outputPending = [] := by
  have hpending := h.outputPending
  unfold UsageStream.afterFailure UsageStream.popOutput
  cases hcase : s.core.outputPending with
  | nil => exact ⟨h, hcase⟩
  | cons frame rest =>
    rw [hcase, List.length_cons] at hpending
    have hrest : rest = [] := List.length_eq_zero_iff.mp (by omega)
    exact ⟨⟨h.event, h.completions, h.terminated, by simp [hrest]⟩, hrest⟩

theorem afterFailure_running (otherwise : Polled) (h : Running s.core) :
    s.afterFailure otherwise = (s, otherwise) := by
  rw [UsageStream.afterFailure, UsageStream.popOutput, h.outputPending]

/-- A failure that ends a stream. -/
theorem Reading.account_failStream (h : Reading serde classifier inputs s)
    {elapsed : Nat} {category : String} {pending : List UInt8} {otherwise : Polled}
    (hfailed : ∀ more, false = true ↔ Succeeded serde classifier (inputs ++ [input] ++ more)) :
    Accounted serde classifier (inputs ++ [input])
      (UsageStream.afterFailure
        { core := (s.core.failStream serde elapsed category).1, pending } otherwise).1 where
  finished := ⟨false, (afterFailure_finished otherwise (h.running.failStream category)).1, hfailed⟩
  outputPending := (afterFailure_finished otherwise (h.running.failStream category)).2

theorem Reading.quiet_concat (h : Reading serde classifier inputs s)
    (hquiet : input.2.quiet = true) : ∀ i ∈ inputs ++ [input], i.2.quiet = true := by
  intro i hi
  rcases List.mem_append.mp hi with hold | hnew
  · exact h.quiet i hold
  · rw [List.mem_singleton.mp hnew]
    exact hquiet

theorem Reading.popOutput (h : Reading serde classifier inputs s) : s.popOutput = none := by
  rw [UsageStream.popOutput, h.running.outputPending]

theorem chunksOf_concat_chunk (inputs : List (Nat × Upstream)) (elapsed : Nat) (bytes : List UInt8) :
    chunksOf (inputs ++ [(elapsed, .chunk bytes)]) = chunksOf inputs ++ [bytes] := by
  simp [chunksOf, Upstream.chunk?]

theorem Fits.concat {chunks : List (List UInt8)} {bytes : List UInt8} (h : Fits chunks)
    (hbytes : (restOf eventEnd chunks).length + bytes.length ≤ maxSseEventBytes) :
    Fits (chunks ++ [bytes]) := by
  intro lead chunk hlead
  rcases Nat.lt_or_ge lead.length chunks.length with hshort | hlong
  · refine h lead chunk (List.prefix_of_prefix_length_le hlead (List.prefix_append _ _) ?_)
    rw [List.length_append, List.length_singleton]
    exact hshort
  · have hwhole : lead ++ [chunk] = chunks ++ [bytes] := by
      refine hlead.eq_of_length (Nat.le_antisymm hlead.length_le ?_)
      rw [List.length_append, List.length_append, List.length_singleton, List.length_singleton]
      exact Nat.add_le_add_right hlong 1
    obtain ⟨rfl, hchunk⟩ := List.append_inj' hwhole rfl
    obtain rfl : chunk = bytes := by simpa using hchunk
    exact hbytes

/-- The collector after one chunk more. -/
theorem collect_concat (chunks : List (List UInt8)) (bytes : List UInt8) :
    pushAll eventEnd (fun frames frame => frames ++ [frame]) (fun _ => false) { core := [] }
        (chunks ++ [bytes]) =
      Framing.push eventEnd (fun frames frame => frames ++ [frame]) (fun _ => false)
        { core := framesOf eventEnd chunks, pending := restOf eventEnd chunks } bytes := by
  rw [pushAll, List.foldl_concat]
  rfl

theorem Reading.chunk (h : Reading serde classifier inputs s) (elapsed : Nat) (bytes : List UInt8) :
    Reading serde classifier (inputs ++ [(elapsed, .chunk bytes)])
        (s.pollNext serde classifier elapsed (.chunk bytes)).1 ∨
    Accounted serde classifier (inputs ++ [(elapsed, .chunk bytes)])
        (s.pollNext serde classifier elapsed (.chunk bytes)).1 := by
  have hlead : ∀ {lead}, inputs ++ [(elapsed, Upstream.chunk bytes)] <+: lead →
      chunksOf inputs ++ [bytes] <+: chunksOf lead := by
    intro lead hlead
    have := chunksOf_lead hlead
    rwa [chunksOf_concat_chunk] at this
  rw [UsageStream.pollNext, h.popOutput]
  simp only [h.running.terminated, Bool.false_eq_true, if_false, UsageStream.pollUpstream,
    UsageStream.ingest]
  split
  next hlarge =>
    rw [h.pending] at hlarge
    refine .inr (h.account_failStream (h.failed fun lead hlong hgood => ?_))
    exact absurd (hgood.2.1 _ _ (hlead hlong)) (Nat.not_le.mpr hlarge)
  next hsmall =>
    rw [Nat.not_lt, h.pending] at hsmall
    rw [if_neg (by rw [h.running.native]; exact Bool.false_ne_true)]
    have hphase : Tracks UsageCore.terminated
        (fun s frames => Phase s (verdict serde classifier frames)) s
        { core := framesOf eventEnd (chunksOf inputs), pending := restOf eventEnd (chunksOf inputs) } := by
      refine ⟨?_, .inr h.pending⟩
      show Phase s.core (verdict serde classifier (framesOf eventEnd (chunksOf inputs)))
      rw [h.undecided]
      exact h.running
    have hpushed := (tracked_phase serde classifier elapsed).push eventEnd hphase bytes
    rw [← collect_concat] at hpushed
    obtain ⟨hcore, hpending⟩ := hpushed
    generalize Framing.push eventEnd _ _ s bytes = s' at hcore hpending ⊢
    have hframes : Phase s'.core (verdict serde classifier
        (framesOf eventEnd (chunksOf (inputs ++ [(elapsed, .chunk bytes)])))) := by
      rw [chunksOf_concat_chunk]
      exact hcore
    cases hverdict : verdict serde classifier
        (framesOf eventEnd (chunksOf (inputs ++ [(elapsed, .chunk bytes)]))) with
    | none =>
      rw [hverdict] at hframes
      have hrunning : Running s'.core := hframes
      rw [afterFailure_running _ hrunning]
      refine .inl ⟨hrunning, h.quiet_concat rfl, ?_, hverdict, ?_⟩
      · rw [chunksOf_concat_chunk]
        exact h.fits.concat hsmall
      · rw [chunksOf_concat_chunk]
        refine hpending.resolve_left ?_
        rw [hrunning.terminated]
        exact Bool.false_ne_true
    | some success =>
      rw [hverdict] at hframes
      obtain ⟨hfinished, houtput⟩ := afterFailure_finished (Polled.bytes bytes) hframes
      refine .inr ⟨⟨success, hfinished, fun more => ?_⟩, houtput⟩
      cases success with
      | false =>
        refine h.failed (fun lead hlong hgood => ?_) more
        have hlonger := verdict_lead (framesOf_lead (chunksOf_lead hlong)) hverdict
        rw [hgood.2.2] at hlonger
        exact nomatch hlonger
      | true =>
        refine ⟨fun _ => ⟨inputs ++ [(elapsed, .chunk bytes)], List.prefix_append _ more,
          h.quiet_concat rfl, ?_, hverdict⟩, fun _ => rfl⟩
        rw [chunksOf_concat_chunk]
        exact h.fits.concat hsmall

theorem Reading.poll (h : Reading serde classifier inputs s) (input : Nat × Upstream) :
    Reading serde classifier (inputs ++ [input]) (s.pollNext serde classifier input.1 input.2).1 ∨
    Accounted serde classifier (inputs ++ [input])
      (s.pollNext serde classifier input.1 input.2).1 := by
  obtain ⟨elapsed, upstream⟩ := input
  cases upstream with
  | chunk bytes => exact h.chunk elapsed bytes
  | error =>
    rw [UsageStream.pollNext, h.popOutput]
    simp only [h.running.terminated, Bool.false_eq_true, if_false, UsageStream.pollUpstream]
    exact .inr (h.account_failStream (h.failed_of_not_quiet rfl))
  | ended =>
    obtain ⟨event, hevent, hsuccess⟩ := h.running.event
    rw [UsageStream.pollNext, h.popOutput]
    simp only [h.running.terminated, h.running.native, hevent, Option.any_some, hsuccess, if_true,
      Bool.false_eq_true, if_false, UsageStream.pollUpstream, UsageStream.upstreamEnded]
    exact .inr (h.account_failStream (h.failed_of_not_quiet rfl))
  | pending idle heartbeat =>
    rw [UsageStream.pollNext, h.popOutput]
    simp only [h.running.terminated, Bool.false_eq_true, if_false]
    cases idle with
    | true => exact .inr (h.account_failStream (h.failed_of_not_quiet rfl))
    | false =>
      have hchunks : chunksOf (inputs ++ [(elapsed, .pending false heartbeat)]) = chunksOf inputs := by
        simp [chunksOf, Upstream.chunk?]
      have hnext : Reading serde classifier (inputs ++ [(elapsed, .pending false heartbeat)]) s := by
        refine ⟨h.running, h.quiet_concat rfl, ?_, ?_, ?_⟩
        · rw [hchunks]
          exact h.fits
        · rw [hchunks]
          exact h.undecided
        · rw [hchunks]
          exact h.pending
      cases heartbeat <;> exact .inl hnext

/-- An accounted stream gives nothing more. -/
theorem Accounted.poll (h : Accounted serde classifier inputs s) (input : Nat × Upstream) :
    s.pollNext serde classifier input.1 input.2 = (s, .ended) ∧
      Accounted serde classifier (inputs ++ [input]) s := by
  obtain ⟨success, hfinished, hsucceeded⟩ := h.finished
  constructor
  · rw [UsageStream.pollNext, UsageStream.popOutput, h.outputPending]
    simp only [hfinished.terminated, if_true]
  · refine ⟨⟨success, hfinished, fun more => ?_⟩, h.outputPending⟩
    rw [List.append_assoc]
    exact hsucceeded ([input] ++ more)

theorem reading_new {event : UsageEvent} (capturesResponse : Bool) (hwire : event.wireApi ≠ .gemini)
    (hsuccess : event.success = true) :
    Reading serde classifier [] (UsageStream.new event capturesResponse) where
  running := ⟨⟨event, rfl, hsuccess⟩, rfl, rfl, rfl, decide_eq_false hwire⟩
  quiet := nofun
  fits := by
    intro lead chunk hlead
    rw [chunksOf, List.filterMap_nil, List.prefix_nil] at hlead
    simp at hlead
  undecided := rfl
  pending := rfl

/-- Every stream is read on or accounted. -/
theorem reading_or_accounted {event : UsageEvent} (capturesResponse : Bool)
    (hwire : event.wireApi ≠ .gemini) (hsuccess : event.success = true)
    (inputs : List (Nat × Upstream)) :
    Reading serde classifier inputs
        ((UsageStream.new event capturesResponse).run serde classifier inputs) ∨
      Accounted serde classifier inputs
        ((UsageStream.new event capturesResponse).run serde classifier inputs) := by
  induction inputs using List.reverseRecOn with
  | nil => exact .inl (reading_new capturesResponse hwire hsuccess)
  | append_singleton inputs input ih =>
    rw [UsageStream.run, List.foldl_concat]
    rcases ih with hreading | haccounted
    · exact hreading.poll input
    · obtain ⟨hpoll, hnext⟩ := haccounted.poll input
      rw [UsageStream.run] at hpoll hnext
      rw [hpoll]
      exact .inr hnext

theorem yields_accounted (h : Accounted serde classifier inputs s) (after : List (Nat × Upstream)) :
    ∀ polled ∈ s.yields serde classifier after, polled = .ended := by
  induction after generalizing inputs s with
  | nil => exact nofun
  | cons input after ih =>
    obtain ⟨hpoll, hnext⟩ := h.poll input
    rw [UsageStream.yields, hpoll]
    intro polled hmem
    rcases List.mem_cons.mp hmem with rfl | hrest
    · rfl
    · exact ih hnext polled hrest

/-- The completion callback runs once over the life of a stream, it reports success exactly when a
success event was read and nothing went wrong before, and a stream that has ended gives nothing
more. -/
theorem completion_once (serde : Json.Serde) (classifier : Classifier) (event : UsageEvent)
    (capturesResponse : Bool) (hwire : event.wireApi ≠ .gemini) (hsuccess : event.success = true)
    (inputs : List (Nat × Upstream)) (droppedAt : Nat) :
    (∃ completion,
      (((UsageStream.new event capturesResponse).run serde classifier inputs).drop
        droppedAt).core.completions = [completion] ∧
      (completion.event.success = true ↔ Succeeded serde classifier inputs)) ∧
    (((UsageStream.new event capturesResponse).run serde classifier inputs).core.terminated = true →
      ∀ after, ∀ polled ∈ ((UsageStream.new event capturesResponse).run serde classifier
        inputs).yields serde classifier after, polled = .ended) := by
  rcases reading_or_accounted capturesResponse hwire hsuccess inputs with hreading | haccounted
  · constructor
    · obtain ⟨-, ⟨completion, hcompletions, hfailed⟩, -, -⟩ :=
        hreading.running.finish (some false) (some "client_cancelled")
      refine ⟨completion, hcompletions, ?_⟩
      rw [hfailed]
      refine ⟨fun hfalse => absurd hfalse Bool.false_ne_true, ?_⟩
      rintro ⟨lead, hlead, -, -, hverdict⟩
      exact (hreading.not_succeeded hlead hverdict).elim
    · intro hterminated
      rw [hreading.running.terminated] at hterminated
      exact nomatch hterminated
  · constructor
    · obtain ⟨success, hfinished, hsucceeded⟩ := haccounted.finished
      obtain ⟨completion, hcompletions, hevent⟩ := hfinished.completions
      have hdrop : ∀ success category,
          ((UsageStream.new event capturesResponse).run serde classifier inputs).core.finish droppedAt
            success category =
          ((UsageStream.new event capturesResponse).run serde classifier inputs).core := by
        intro success category
        rw [UsageCore.finish, hfinished.event]
      refine ⟨completion, ?_, ?_⟩
      · rw [UsageStream.drop, hdrop]
        exact hcompletions
      · rw [hevent]
        simpa using hsucceeded []
    · exact fun _ => yields_accounted haccounted

end

/-- A stream that ends well in its second chunk, polled once more. -/
theorem completion_once_done :
    let serde := Json.Serde.ofTexts []
    let classifier : Classifier := ⟨fun _ _ => none, fun _ => .null⟩
    let event : UsageEvent :=
      { requestId := "request", wireApi := .responses, success := true, httpStatus := 200 }
    let inputs := [(3, Upstream.chunk (utf8 "data: [DO")), (4, .pending false true),
      (5, .chunk (utf8 "NE]\n\n")), (6, .ended)]
    (∃ completion, (((UsageStream.new event false).run serde classifier inputs).drop
        9).core.completions = [completion] ∧
      (completion.event.success = true ↔ Succeeded serde classifier inputs)) ∧
    (((UsageStream.new event false).run serde classifier inputs).core.terminated = true →
      ∀ after, ∀ polled ∈ ((UsageStream.new event false).run serde classifier
        inputs).yields serde classifier after, polled = .ended) :=
  completion_once _ _ _ false (by decide) rfl _ 9

end Zenith.Gateway
