import Mathlib
import Zenith.Gateway.StreamAccounting
import Zenith.Protocol.MessagesMoves

/-!
# The usage of a streamed message

Anthropic reports the usage of a streamed message twice: the start of the message has the counters
of the input, and the last delta has those of the output and may leave the others out. The bridge
keeps only the last report, and a native stream is accounted by the reports of the deltas alone.
`streamed_usage_iff` says when this gives the usage of the complete message, which has the counters
of both.
-/

namespace Zenith.Gateway

open Zenith.Bytes Zenith.Framing Zenith.Protocol Zenith.Tables
open Zenith.Protocol.MessagesStream (Move eventKind eventValues usageStep)

/-! ## The two reports -/

def usageKeys : List String :=
  ["input_tokens", "output_tokens", "cache_read_input_tokens", "cache_creation_input_tokens",
    "cache_creation"]

/-- The usage of the complete message: the counters of the delta, and those of the start that the
delta leaves out. -/
def mergedUsage (started delta : Json) : Json :=
  .ofFields (usageKeys.filterMap fun key =>
    ((delta.get key).or (started.get key)).map fun value => (key, value))

/-- A stream of a message as Anthropic sends it: the start reports `started`, no other event than a
delta of the message reports usage, the last one reports `delta`, and the stop comes last. -/
structure DeliversUsage (serde : Json.Serde) (chunks : List (List UInt8)) (started delta : Json) :
    Prop where
  shape : ∃ start middle stop,
    eventValues serde (framesOf eventEnd chunks) = start :: (middle ++ [stop]) ∧
    eventKind start = some "message_start" ∧ getIn start "message" "usage" = some started ∧
    eventKind stop = some "message_stop" ∧
    ∀ value ∈ middle, eventKind value ≠ some "message_start" ∧ outcomeOf (eventKind value) = none
  reports : ∀ value ∈ eventValues serde (framesOf eventEnd chunks),
    findUsage value = if eventKind value = some "message_delta" then value.get "usage" else none
  last : ((eventValues serde (framesOf eventEnd chunks)).filterMap findUsage).getLast? = some delta
  json : ∀ event ∈ framesOf eventEnd chunks, eventData event ≠ utf8 "[DONE]"

/-! ## The bridge -/

variable {response : MessagesBridgeResponse}

theorem completedResponse_usage {lib : Libraries} {s : MessagesStream}
    {request : MessagesBridgeRequest}
    (h : s.completedResponse lib request = .ok response) :
    response.responseBody.usage = responsesUsage s.usage := by
  unfold MessagesStream.completedResponse at h
  simp only [bind, Except.bind] at h
  split at h
  next => exact nomatch h
  next =>
    split at h
    next => exact nomatch h
    next =>
      split at h
      next => exact nomatch h
      next =>
        split at h
        next => exact nomatch h
        next =>
          split at h
          next => exact nomatch h
          next =>
            split at h
            next => exact nomatch h
            next =>
              cases h
              rfl

/-- The bridge keeps the last report. -/
theorem bridge_usage (lib : Libraries) (request : MessagesBridgeRequest)
    (events : List (List UInt8))
    (h : (handleAll (MessagesStream.handleEvent lib) MessagesStream.terminal
      (MessagesStream.new request) events).completed = some response) :
    ∃ lead front stop, lead <+: events ∧ eventValues lib.serde lead = front ++ [stop] ∧
      eventKind stop = some "message_stop" ∧
      response.responseBody.usage = responsesUsage (front.foldl usageStep none) := by
  have hrun := @MessagesStream.handleAll_values lib
    (fun s values => s.completed = none ∧ s.usage = values.foldl usageStep none)
    (fun s values => ∀ response, s.completed = some response → ∃ front stop,
      values = front ++ [stop] ∧ eventKind stop = some "message_stop" ∧
      response.responseBody.usage = responsesUsage (front.foldl usageStep none))
    (MessagesStream.new request) rfl (by intro index block hblock; simp [MessagesStream.new] at hblock)
    ⟨rfl, rfl⟩ ?_ ?_ events
  · dsimp only at hrun
    generalize handleAll (MessagesStream.handleEvent lib) MessagesStream.terminal
      (MessagesStream.new request) events = s at hrun h
    rcases hrun with ⟨-, -, hnone, -⟩ | ⟨-, lead, hlead, hended⟩
    · rw [h] at hnone
      exact nomatch hnone
    · obtain ⟨front, stop, hvalues, hstop, husage⟩ := hended response h
      exact ⟨lead, front, stop, hlead, hvalues, hstop, husage⟩
  · rintro s values value s' hs ⟨hcompleted, husage⟩ hmove
    constructor
    · intro hs'
      obtain ⟨hnext, hsame⟩ := hmove.goes_on hs'
      exact ⟨hsame.trans hcompleted, by rw [List.foldl_concat, ← husage, hnext]⟩
    · intro hs' response hdone
      rcases hmove.ends hs hs' with hsame | ⟨request, response', hkind, hresponse, hsame⟩
      · rw [hdone, hcompleted] at hsame
        exact nomatch hsame
      · rw [hdone, Option.some.injEq] at hsame
        refine ⟨values, value, rfl, hkind, ?_⟩
        rw [hsame, completedResponse_usage hresponse, ← husage]
        rfl
  · rintro s values hs ⟨hcompleted, -⟩ response hdone
    rw [MessagesStream.completed_failInvalid hs, hcompleted] at hdone
    exact nomatch hdone

/-- After the start, the last report of a delta counts. -/
theorem foldl_usageStep {values : List Json} (usage : Option Json)
    (hstart : ∀ value ∈ values, eventKind value ≠ some "message_start")
    (hreports : ∀ value ∈ values,
      findUsage value = if eventKind value = some "message_delta" then value.get "usage" else none) :
    values.foldl usageStep usage = ((values.filterMap findUsage).getLast?).or usage := by
  induction values using List.reverseRecOn with
  | nil => rfl
  | append_singleton values value ih =>
    have hmem : value ∈ values ++ [value] := List.mem_append_right _ (List.mem_singleton_self value)
    rw [List.foldl_concat, ih (fun v hv => hstart v (List.mem_append_left _ hv))
      (fun v hv => hreports v (List.mem_append_left _ hv)), List.filterMap_append]
    have hvalue := hreports value hmem
    by_cases hdelta : eventKind value = some "message_delta"
    · rw [if_pos hdelta] at hvalue
      have hstep : ∀ u, usageStep u value = (value.get "usage").or u := by
        intro u
        rw [usageStep, hdelta]
        rfl
      rw [hstep]
      cases husage : value.get "usage" with
      | none =>
        rw [husage] at hvalue
        simp [hvalue]
      | some report =>
        rw [husage] at hvalue
        simp [hvalue]
    · rw [if_neg hdelta] at hvalue
      rw [MessagesStream.usageStep_of_kind (hstart value hmem) hdelta]
      simp [hvalue]

theorem eventValues_lead {serde : Json.Serde} {lead events : List (List UInt8)} (h : lead <+: events) :
    eventValues serde lead <+: eventValues serde events := by
  obtain ⟨more, rfl⟩ := h
  rw [eventValues, eventValues, List.filterMap_append]
  exact List.prefix_append _ _

/-- A part of a list that ends with the mark of its last element is the whole list. -/
theorem lead_eq_of_mark {α : Type} {P : α → Prop} {front front' : List α} {last last' : α}
    (hlead : front' ++ [last'] <+: front ++ [last]) (hlast' : P last') (hfront : ∀ a ∈ front, ¬ P a) :
    front' = front ∧ last' = last := by
  have hlen := hlead.length_le
  rw [List.length_append, List.length_append, List.length_singleton, List.length_singleton] at hlen
  rcases Nat.lt_or_ge front'.length front.length with hlt | hge
  · have hshort : front' ++ [last'] <+: front := by
      refine List.prefix_of_prefix_length_le hlead (List.prefix_append _ _) ?_
      rw [List.length_append, List.length_singleton]
      exact hlt
    exact absurd hlast'
      (hfront last' (hshort.subset (List.mem_append_right _ (List.mem_singleton_self last'))))
  · have hwhole : front' ++ [last'] = front ++ [last] := by
      refine hlead.eq_of_length (Nat.le_antisymm hlead.length_le ?_)
      rw [List.length_append, List.length_append, List.length_singleton, List.length_singleton]
      omega
    obtain ⟨hsame, hlast⟩ := List.append_inj' hwhole rfl
    exact ⟨hsame, by simpa using hlast⟩

section
variable {serde : Json.Serde} {chunks : List (List UInt8)} {started delta : Json}

/-- Before the stop, no event ends the stream. -/
theorem DeliversUsage.front_eq (h : DeliversUsage serde chunks started delta)
    {lead : List (List UInt8)} (hlead : lead <+: framesOf eventEnd chunks) {front : List Json}
    {stop : Json} (hvalues : eventValues serde lead = front ++ [stop])
    (hstop : outcomeOf (eventKind stop) ≠ none) :
    ∃ start middle, front = start :: middle ∧ eventKind start = some "message_start" ∧
      getIn start "message" "usage" = some started ∧
      (∀ value ∈ middle, eventKind value ≠ some "message_start") ∧
      (middle.filterMap findUsage).getLast? = some delta ∧
      (∀ value ∈ middle, findUsage value =
        if eventKind value = some "message_delta" then value.get "usage" else none) ∧
      findUsage start = none ∧ findUsage stop = none := by
  obtain ⟨start, middle, last, hshape, hstart, hstarted, hlast, hmiddle⟩ := h.shape
  have hpart := @eventValues_lead serde _ _ hlead
  rw [hvalues, hshape, ← List.cons_append] at hpart
  have hnone : ∀ value ∈ start :: middle, ¬ outcomeOf (eventKind value) ≠ none := by
    intro value hvalue
    rcases List.mem_cons.mp hvalue with rfl | hvalue
    · rw [hstart]
      exact not_not.mpr rfl
    · exact not_not.mpr (hmiddle value hvalue).2
  obtain ⟨rfl, rfl⟩ := lead_eq_of_mark hpart hstop hnone
  have hreports := h.reports
  have hdelta := h.last
  rw [hshape] at hreports hdelta
  have hstartNone : findUsage start = none := by
    rw [hreports start List.mem_cons_self, hstart]
    rfl
  have hstopNone : findUsage stop = none := by
    rw [hreports stop (by simp), hlast]
    rfl
  refine ⟨start, middle, rfl, hstart, hstarted, fun value hvalue => (hmiddle value hvalue).1, ?_,
    fun value hvalue => hreports value (by simp [hvalue]), hstartNone, hstopNone⟩
  rw [List.filterMap_cons, hstartNone, List.filterMap_append] at hdelta
  simpa [hstopNone] using hdelta

/-- The usage of a response of the bridge is that of the last delta. -/
theorem DeliversUsage.bridge {lib : Libraries} (h : DeliversUsage lib.serde chunks started delta)
    {request : MessagesBridgeRequest} {response : MessagesBridgeResponse}
    (hresponse : (pushAll eventEnd (MessagesStream.handleEvent lib) MessagesStream.terminal
      (MessagesStreamBridge.new request) chunks).core.completed = some response) :
    response.responseBody.usage = responsesUsage (some delta) := by
  rw [MessagesStreamBridge.new, pushAll_core] at hresponse
  obtain ⟨lead, front, stop, hlead, hvalues, hstop, husage⟩ := bridge_usage lib request _ hresponse
  obtain ⟨start, middle, rfl, hstart, hstarted, hmiddle, hdelta, hreports, -, -⟩ :=
    h.front_eq hlead hvalues (by rw [hstop]; exact Option.some_ne_none _)
  rw [husage, List.foldl_cons, foldl_usageStep _ hmiddle hreports, hdelta]
  rfl

/-! ## Native streams -/

/-- The event that a stream has, or the one it was accounted with. -/
def currentEvent (s : UsageCore) : Option UsageEvent :=
  s.event.or (s.completions.head?.map Completion.event)

/-- The last report among some values. -/
def lastUsage (values : List Json) : Option Json := (values.filterMap findUsage).getLast?

/-- The counters of an event after some values. -/
def tokensAfter (event : UsageEvent) (values : List Json) : List (Option Nat) :=
  tokens (match lastUsage values with
    | none => event
    | some usage => applyUsage event usage)

theorem tokensAfter_concat (event : UsageEvent) (values : List Json) (value : Json) :
    tokensAfter event (values ++ [value]) =
      match findUsage value with
      | none => tokensAfter event values
      | some usage => tokens (applyUsage event usage) := by
  unfold tokensAfter lastUsage
  rw [List.filterMap_append]
  cases h : findUsage value with
  | none => simp [h]
  | some usage => simp [h]

/-- What a stream has counted after some events; `handled` are those it has looked at. -/
structure Counted (serde : Json.Serde) (classifier : Classifier) (event : UsageEvent) (s : UsageCore)
    (handled : List (List UInt8)) : Prop where
  tokens_eq : ∀ e, currentEvent s = some e →
    tokens e = tokensAfter event (eventValues serde handled)
  success : s.event = none → (∃ completion ∈ s.completions, completion.event.success = true) →
    ∃ front last, handled = front ++ [last] ∧ decisive serde classifier last = some true

variable {classifier : Classifier} {event : UsageEvent} {s : UsageCore}

theorem currentEvent_running (h : Running s) : currentEvent s = s.event := by
  obtain ⟨e, he, -⟩ := h.event
  rw [currentEvent, he]
  rfl

theorem finish_currentEvent (h : Running s) (elapsed : Nat) (success : Option Bool)
    (category : Option String) :
    (currentEvent (s.finish elapsed success category)).map tokens = s.event.map tokens := by
  obtain ⟨e, he, -⟩ := h.event
  simp [currentEvent, UsageCore.finish, he, h.completions, tokens]

theorem failStream_currentEvent (h : Running s) (elapsed : Nat) (category : String) :
    (currentEvent (s.failStream serde elapsed category).1).map tokens = s.event.map tokens := by
  obtain ⟨e, he, -⟩ := h.event
  unfold UsageCore.failStream UsageCore.queueResponsesFailure
  simp only [he]
  split
  next => simp [currentEvent, UsageCore.finish, he, h.completions, tokens]
  next => simp [currentEvent, UsageCore.finish, h.completions, tokens]

variable {handled : List (List UInt8)} {frame : List UInt8}

/-- The counters of a stream that has looked at an event. -/
theorem observe_tokens (hs : Running s)
    (h : Counted serde classifier event s handled) (elapsed : Nat)
    (hdone : eventData frame ≠ utf8 "[DONE]")
    (hvalid : ((parseSseEvent serde classifier frame).hasData &&
      !(parseSseEvent serde classifier frame).valid) = false) :
    (s.observe elapsed (parseSseEvent serde classifier frame)).event.map tokens =
      some (tokensAfter event (eventValues serde (handled ++ [frame]))) := by
  obtain ⟨e, he, -⟩ := hs.event
  have htokens := h.tokens_eq e (by rw [currentEvent_running hs, he])
  have hobserve : ∀ terminal : TerminalEvent, (s.observe elapsed terminal).event.map tokens =
      some (terminal.usage.elim (tokens e) fun usage => tokens (applyUsage e usage)) := by
    intro terminal
    rw [UsageCore.observe, he]
    cases terminal.usage <;> rfl
  rw [hobserve]
  unfold parseSseEvent at hvalid ⊢
  dsimp only at hvalid ⊢
  have hvalues : eventValues serde (handled ++ [frame]) =
      eventValues serde handled ++ (parseSseData serde frame).toList := by
    cases hparse : parseSseData serde frame <;> simp [eventValues, hparse]
  rw [hvalues, parseSseData]
  by_cases hdata : eventData frame = []
  · simp [hdata, htokens]
  · rw [if_neg hdata, if_neg hdone] at hvalid ⊢
    rw [if_neg hdata]
    cases hparse : serde.fromSlice (eventData frame) with
    | none =>
      rw [hparse] at hvalid
      cases hvalid
    | some value =>
      rw [Option.toList_some, tokensAfter_concat, ← htokens]
      show some ((findUsage value).elim (tokens e) fun usage => tokens (applyUsage e usage)) = _
      cases findUsage value <;> rfl

theorem captureNativeResponse_event (s : UsageCore) (response : Option Json) :
    (s.captureNativeResponse response).event = s.event := by
  unfold UsageCore.captureNativeResponse
  split <;> rfl

/-- A failure counts nothing more. -/
theorem Counted.failStream (hs : Running s)
    (h : Counted serde classifier event s handled) (elapsed : Nat) (category : String) :
    Counted serde classifier event (s.failStream serde elapsed category).1 handled := by
  constructor
  · intro e he
    have hsame := @failStream_currentEvent serde s hs elapsed category
    rw [he, Option.map_some] at hsame
    obtain ⟨before, hbefore, htokens⟩ := Option.map_eq_some_iff.mp hsame.symm
    rw [← htokens]
    exact h.tokens_eq before (by rw [currentEvent_running hs, hbefore])
  · rintro - ⟨completion, hmem, hsuccess⟩
    obtain ⟨-, ⟨only, honly, hfailed⟩, -, -⟩ := @Running.failStream serde elapsed s hs category
    rw [honly, List.mem_singleton] at hmem
    rw [hmem, hfailed] at hsuccess
    exact nomatch hsuccess

/-- The end of a stream counts nothing more. -/
theorem Counted.finish {s₁ : UsageCore} (hs : Running s₁)
    (htokens : s₁.event.map tokens = some (tokensAfter event (eventValues serde handled)))
    (elapsed : Nat) (success : Option Bool) (category : Option String)
    (hsuccess : success.getD true = true →
      ∃ front last, handled = front ++ [last] ∧ decisive serde classifier last = some true) :
    Counted serde classifier event
      { s₁.finish elapsed success category with terminated := true } handled := by
  constructor
  · intro e he
    have hsame := finish_currentEvent hs elapsed success category
    rw [htokens] at hsame
    have hcurrent : currentEvent (s₁.finish elapsed success category) = some e := he
    rw [hcurrent, Option.map_some, Option.some.injEq] at hsame
    exact hsame
  · rintro - ⟨completion, hmem, hgood⟩
    obtain ⟨-, ⟨only, honly, hresult⟩, -, -⟩ := @Running.finish elapsed s₁ hs success category
    rw [honly, List.mem_singleton] at hmem
    rw [hmem, hresult] at hgood
    exact hsuccess hgood

theorem Counted.handleEvent (hs : Running s)
    (h : Counted serde classifier event s handled) (elapsed : Nat)
    (hdone : eventData frame ≠ utf8 "[DONE]") :
    ∃ handled', handled' <+: handled ++ [frame] ∧
      ((s.handleEvent serde classifier elapsed frame).terminated = false →
        handled' = handled ++ [frame]) ∧
      Counted serde classifier event (s.handleEvent serde classifier elapsed frame) handled' := by
  have hfailed : ∀ category, ∃ handled', handled' <+: handled ++ [frame] ∧
      ((s.failStream serde elapsed category).1.terminated = false → handled' = handled ++ [frame]) ∧
      Counted serde classifier event (s.failStream serde elapsed category).1 handled' := by
    intro category
    exact ⟨handled, List.prefix_append _ _, nofun, h.failStream hs elapsed category⟩
  have hdecisive : decisive serde classifier frame = decisive serde classifier frame := rfl
  unfold UsageCore.handleEvent
  split
  next => exact hfailed _
  next hsmall =>
    have htokens := observe_tokens hs h elapsed hdone
    have hseen : Running (s.observe elapsed (parseSseEvent serde classifier frame)) := hs.observe _
    conv_rhs at hdecisive => rw [decisive, if_neg hsmall]
    generalize parseSseEvent serde classifier frame = terminal at htokens hseen hdecisive ⊢
    unfold UsageCore.handleTerminalEvent
    split
    next => exact hfailed _
    next hvalid =>
      rw [Bool.not_eq_true] at hvalid
      specialize htokens hvalid
      simp only [hvalid, Bool.false_eq_true, if_false] at hdecisive
      refine ⟨handled ++ [frame], List.prefix_rfl, fun _ => rfl, ?_⟩
      have hcaptured : Running ((s.observe elapsed terminal).captureNativeResponse terminal.response) :=
        hseen.captureNativeResponse _
      dsimp only
      cases houtcome : terminal.outcome with
      | none =>
        constructor
        · intro e he
          rw [currentEvent_running hseen] at he
          rw [he, Option.map_some, Option.some.injEq] at htokens
          exact htokens
        · intro hnone
          obtain ⟨e, he, -⟩ := hseen.event
          rw [he] at hnone
          exact nomatch hnone
      | some outcome =>
        rw [houtcome] at hdecisive
        cases outcome with
        | success =>
          refine Counted.finish hcaptured ?_ elapsed none none fun _ => ⟨handled, frame, rfl, hdecisive⟩
          rw [captureNativeResponse_event]
          exact htokens
        | incomplete =>
          refine Counted.finish hcaptured ?_ elapsed (some false) _ nofun
          rw [captureNativeResponse_event]
          exact htokens
        | failure =>
          have hhint : Running { s.observe elapsed terminal with
              cooldownHint := terminal.cooldownHint } :=
            ⟨hseen.event, hseen.completions, hseen.terminated, hseen.outputPending, hseen.native⟩
          exact Counted.finish hhint htokens elapsed (some false) _ nofun

/-- A stream whose counters are those of the events it has looked at. -/
def Counting (serde : Json.Serde) (classifier : Classifier) (event : UsageEvent) (s : UsageCore)
    (frames : List (List UInt8)) : Prop :=
  (∀ frame ∈ frames, eventData frame ≠ utf8 "[DONE]") →
    ∃ handled, handled <+: frames ∧ (s.terminated = false → handled = frames) ∧
      Counted serde classifier event s handled

theorem tracked_counting (serde : Json.Serde) (classifier : Classifier) (event : UsageEvent)
    (elapsed : Nat) :
    Tracked (UsageCore.handleEvent serde classifier elapsed) UsageCore.terminated
      (fun s frames => Phase s (verdict serde classifier frames) ∧
        Counting serde classifier event s frames) := by
  have hphase := tracked_phase serde classifier elapsed
  constructor
  · rintro s frames frame ⟨h, hcounting⟩ hs
    refine ⟨hphase.frame s frames frame h hs, fun hdone => ?_⟩
    obtain ⟨-, hrunning⟩ := h.running hs
    obtain ⟨handled, -, hall, hcounted⟩ :=
      hcounting fun f hf => hdone f (List.mem_append_left _ hf)
    obtain rfl := hall hs
    exact hcounted.handleEvent hrunning elapsed
      (hdone frame (List.mem_append_right _ (List.mem_singleton_self frame)))
  · rintro s frames frame ⟨h, hcounting⟩ hs
    refine ⟨hphase.ended s frames frame h hs, fun hdone => ?_⟩
    obtain ⟨handled, hlead, -, hcounted⟩ :=
      hcounting fun f hf => hdone f (List.mem_append_left _ hf)
    refine ⟨handled, hlead.trans (List.prefix_append _ _), fun hrunning => ?_, hcounted⟩
    rw [hs] at hrunning
    exact nomatch hrunning

theorem counting_failStream (hs : Running s) {frames frames' : List (List UInt8)}
    (h : Counting serde classifier event s frames) (hlead : frames <+: frames') (elapsed : Nat)
    (category : String) :
    Counting serde classifier event (s.failStream serde elapsed category).1 frames' := by
  intro hdone
  obtain ⟨handled, hhandled, -, hcounted⟩ := h fun frame hframe => hdone frame (hlead.subset hframe)
  exact ⟨handled, hhandled.trans hlead, nofun, hcounted.failStream hs elapsed category⟩

theorem counting_afterFailure {s : UsageStream} {frames : List (List UInt8)}
    (h : Counting serde classifier event s.core frames) (otherwise : Polled) :
    Counting serde classifier event (s.afterFailure otherwise).1.core frames := by
  unfold UsageStream.afterFailure UsageStream.popOutput
  cases s.core.outputPending with
  | nil => exact h
  | cons frame rest =>
    intro hdone
    obtain ⟨handled, hlead, hall, hcounted⟩ := h hdone
    exact ⟨handled, hlead, hall, ⟨hcounted.tokens_eq, hcounted.success⟩⟩

variable {inputs : List (Nat × Upstream)}

theorem counting_poll {s : UsageStream}
    (hreading : Reading serde classifier inputs s)
    (h : Counting serde classifier event s.core (framesOf eventEnd (chunksOf inputs)))
    (input : Nat × Upstream) :
    Counting serde classifier event (s.pollNext serde classifier input.1 input.2).1.core
      (framesOf eventEnd (chunksOf (inputs ++ [input]))) := by
  obtain ⟨elapsed, upstream⟩ := input
  have hlead : framesOf eventEnd (chunksOf inputs) <+:
      framesOf eventEnd (chunksOf (inputs ++ [(elapsed, upstream)])) :=
    framesOf_lead (chunksOf_lead (List.prefix_append _ _))
  have hfail : ∀ category, Counting serde classifier event
      (s.core.failStream serde elapsed category).1
      (framesOf eventEnd (chunksOf (inputs ++ [(elapsed, upstream)]))) :=
    counting_failStream hreading.running h hlead elapsed
  rw [UsageStream.pollNext, hreading.popOutput]
  simp only [hreading.running.terminated, Bool.false_eq_true, if_false]
  cases upstream with
  | chunk bytes =>
    simp only [UsageStream.pollUpstream, UsageStream.ingest, hreading.running.terminated,
      hreading.running.native, Bool.false_eq_true, if_false]
    split
    next => exact counting_afterFailure (s := { core := _, pending := _ }) (hfail _) _
    next =>
      have hstart : Tracks UsageCore.terminated
          (fun s frames => Phase s (verdict serde classifier frames) ∧
            Counting serde classifier event s frames) s
          { core := framesOf eventEnd (chunksOf inputs)
            pending := restOf eventEnd (chunksOf inputs) } := by
        refine ⟨⟨?_, h⟩, .inr hreading.pending⟩
        show Phase s.core (verdict serde classifier (framesOf eventEnd (chunksOf inputs)))
        rw [hreading.undecided]
        exact hreading.running
      have hpushed := (tracked_counting serde classifier event elapsed).push eventEnd hstart bytes
      rw [← collect_concat, ← chunksOf_concat_chunk inputs elapsed bytes] at hpushed
      exact counting_afterFailure hpushed.1.2 _
  | error => exact counting_afterFailure (s := { s with core := _ }) (hfail _) _
  | ended =>
    obtain ⟨e, he, hsuccess⟩ := hreading.running.event
    simp only [UsageStream.pollUpstream, UsageStream.upstreamEnded, hreading.running.native, he,
      Option.any_some, hsuccess, if_true, Bool.false_eq_true, if_false]
    exact counting_afterFailure (s := { s with core := _ }) (hfail _) _
  | pending idle heartbeat =>
    have hchunks : chunksOf (inputs ++ [(elapsed, .pending idle heartbeat)]) = chunksOf inputs := by
      simp [chunksOf, Upstream.chunk?]
    cases idle with
    | true => exact counting_afterFailure (s := { s with core := _ }) (hfail _) _
    | false =>
      rw [hchunks]
      cases heartbeat <;> exact h

theorem counting_run {event : UsageEvent} (capturesResponse : Bool) (hwire : event.wireApi ≠ .gemini)
    (hsuccess : event.success = true) (inputs : List (Nat × Upstream)) :
    Counting serde classifier event
      ((UsageStream.new event capturesResponse).run serde classifier inputs).core
      (framesOf eventEnd (chunksOf inputs)) := by
  induction inputs using List.reverseRecOn with
  | nil =>
    refine fun _ => ⟨[], List.prefix_rfl, fun _ => rfl, ?_, by rintro ⟨⟩⟩
    rintro e ⟨⟩
    rfl
  | append_singleton inputs input ih =>
    have hrun : (UsageStream.new event capturesResponse).run serde classifier (inputs ++ [input]) =
        (((UsageStream.new event capturesResponse).run serde classifier inputs).pollNext serde
          classifier input.1 input.2).1 := by
      rw [UsageStream.run, List.foldl_concat]
      rfl
    rw [hrun]
    rcases @reading_or_accounted serde classifier event capturesResponse hwire hsuccess inputs with
      hreading | haccounted
    · exact counting_poll hreading ih input
    · rw [(haccounted.poll input).1]
      intro hdone
      have hlead : framesOf eventEnd (chunksOf inputs) <+:
          framesOf eventEnd (chunksOf (inputs ++ [input])) :=
        framesOf_lead (chunksOf_lead (List.prefix_append _ _))
      obtain ⟨handled, hhandled, -, hcounted⟩ := ih fun f hf => hdone f (hlead.subset hf)
      refine ⟨handled, hhandled.trans hlead, fun hrunning => ?_, hcounted⟩
      obtain ⟨success, hfinished, -⟩ := haccounted.finished
      rw [hfinished.terminated] at hrunning
      cases hrunning

/-- An event that ends a stream well has a value that does, unless it is `[DONE]`. -/
theorem decisive_value (h : decisive serde classifier frame = some true)
    (hdone : eventData frame ≠ utf8 "[DONE]") :
    ∃ value, parseSseData serde frame = some value ∧ outcomeOf (eventKind value) ≠ none := by
  unfold decisive at h
  split at h
  next => cases h
  next =>
    dsimp only at h
    split at h
    next => cases h
    next hvalid =>
      unfold parseSseEvent at h hvalid
      dsimp only at h hvalid
      by_cases hdata : eventData frame = []
      · simp [hdata] at h
      · rw [if_neg hdata, if_neg hdone] at h hvalid
        cases hparse : serde.fromSlice (eventData frame) with
        | none =>
          rw [hparse] at h
          cases h
        | some value =>
          refine ⟨value, by rw [parseSseData, if_neg hdata, hparse], fun hnone => ?_⟩
          rw [hparse] at h
          simp only [terminalEventOf] at h
          rw [eventKind] at hnone
          rw [hnone] at h
          cases h

/-- A native stream that ends well is accounted by the last delta. -/
theorem DeliversUsage.native {event : UsageEvent}
    (h : DeliversUsage serde (chunksOf inputs) started delta) (capturesResponse : Bool)
    (hwire : event.wireApi ≠ .gemini) (hsuccess : event.success = true) {droppedAt : Nat}
    {completion : Completion}
    (hcompletions : (((UsageStream.new event capturesResponse).run serde classifier inputs).drop
      droppedAt).core.completions = [completion])
    (hgood : completion.event.success = true) :
    tokens completion.event = tokens (applyUsage event delta) := by
  obtain ⟨handled, hhandled, -, hcounted⟩ :=
    @counting_run serde classifier event capturesResponse hwire hsuccess inputs h.json
  rcases @reading_or_accounted serde classifier event capturesResponse hwire hsuccess inputs with
    hreading | haccounted
  · obtain ⟨-, ⟨only, honly, hfailed⟩, -, -⟩ :=
      @Running.finish droppedAt _ hreading.running (some false) (some "client_cancelled")
    have hsame : completion = only := by
      have hlist : [completion] = [only] := hcompletions.symm.trans honly
      simpa using hlist
    rw [hsame, hfailed] at hgood
    exact nomatch hgood
  · obtain ⟨success, hfinished, -⟩ := haccounted.finished
    have hdropped : ((UsageStream.new event capturesResponse).run serde classifier
        inputs).core.completions = [completion] := by
      rw [← hcompletions, UsageStream.drop, UsageCore.finish, hfinished.event]
    have hcurrent : currentEvent ((UsageStream.new event capturesResponse).run serde classifier
        inputs).core = some completion.event := by
      rw [currentEvent, hfinished.event, hdropped]
      rfl
    obtain ⟨front, last, rfl, hlast⟩ := hcounted.success hfinished.event
      ⟨completion, by rw [hdropped]; exact List.mem_singleton_self completion, hgood⟩
    obtain ⟨value, hvalue, houtcome⟩ := decisive_value hlast
      (h.json last (hhandled.subset (List.mem_append_right _ (List.mem_singleton_self last))))
    have hvalues : eventValues serde (front ++ [last]) = eventValues serde front ++ [value] := by
      simp [eventValues, hvalue]
    obtain ⟨start, middle, hfront, -, -, -, hdelta, -, hstartNone, hstopNone⟩ :=
      h.front_eq hhandled hvalues houtcome
    have hlastUsage : lastUsage (eventValues serde (front ++ [last])) = some delta := by
      rw [lastUsage, hvalues, hfront, List.filterMap_append, List.filterMap_cons, hstartNone]
      simpa [hstopNone] using hdelta
    rw [hcounted.tokens_eq _ hcurrent, tokensAfter, hlastUsage]

end

/-! ## When nothing is lost -/

theorem get_filterMap (f : String → Option Json) (keys : List String) (key : String) :
    Json.Fields.get (keys.filterMap fun k => (f k).map fun value => (k, value)) key =
      if key ∈ keys then f key else none := by
  induction keys with
  | nil => rfl
  | cons k keys ih =>
    rw [List.filterMap_cons]
    by_cases hk : key = k
    · subst hk
      cases hf : f key with
      | none => simp [ih, hf]
      | some value => simp [Json.Fields.get_cons]
    · cases hf : f k with
      | none => simp [ih, hk]
      | some value => simp [Json.Fields.get_cons, hk, ih]

theorem get_mergedUsage (started delta : Json) (key : String) :
    (mergedUsage started delta).get key =
      if key ∈ usageKeys then (delta.get key).or (started.get key) else none := by
  rw [mergedUsage, Json.get_ofFields, ← List.filterMap_reverse]
  exact (get_filterMap (fun key => (delta.get key).or (started.get key)) usageKeys.reverse key).trans
    (by simp only [List.mem_reverse])

theorem anthropicUsage_merged (started delta : Json) : AnthropicUsage (mergedUsage started delta) := by
  intro key hkey
  rw [get_mergedUsage, if_neg]
  fin_cases hkey <;> decide

/-- The delta has every counter that the start has. A count of zero for the input may be left out
when cached tokens are counted. -/
structure RepeatsCounters (started delta : Json) : Prop where
  input : delta.get "input_tokens" = none →
    usageCounter started "input_tokens" = none ∨
      (usageCounter started "input_tokens" = some 0 ∧
        ((usageCounter delta "cache_read_input_tokens").isSome ∨
          (usageCounter delta "cache_creation_input_tokens").isSome))
  cacheRead : delta.get "cache_read_input_tokens" = none →
    usageCounter started "cache_read_input_tokens" = none
  cacheWrite : delta.get "cache_creation_input_tokens" = none →
    usageCounter started "cache_creation_input_tokens" = none
  ttl : delta.get "cache_creation" = none → cacheWriteTtlFromUsage started = none

variable {started delta : Json}

/-- A counter of the merged usage that the delta has not left out, or the start does not have. -/
theorem usageCounter_merged {key : String} (hkey : key ∈ usageKeys) :
    usageCounter (mergedUsage started delta) key = usageCounter delta key ↔
      (delta.get key = none → usageCounter started key = none) := by
  rw [usageCounter_some, usageCounter_some, usageCounter_some, get_mergedUsage, if_pos hkey]
  cases delta.get key <;> simp

theorem cacheWriteTtl_merged :
    cacheWriteTtlFromUsage (mergedUsage started delta) = cacheWriteTtlFromUsage delta ↔
      (delta.get "cache_creation" = none → cacheWriteTtlFromUsage started = none) := by
  have hget : (mergedUsage started delta).get "cache_creation" =
      (delta.get "cache_creation").or (started.get "cache_creation") := by
    rw [get_mergedUsage, if_pos (by decide)]
  unfold cacheWriteTtlFromUsage
  rw [hget]
  cases delta.get "cache_creation" <;> simp

theorem usageCounter_merged_output (h : delta.get "output_tokens" ≠ none) :
    usageCounter (mergedUsage started delta) "output_tokens" = usageCounter delta "output_tokens" :=
  (usageCounter_merged (by decide)).mpr fun hnone => absurd hnone h

theorem usageCounter_merged_input (h : delta.get "input_tokens" = none) :
    usageCounter (mergedUsage started delta) "input_tokens" = usageCounter started "input_tokens" ∧
      usageCounter delta "input_tokens" = none := by
  rw [usageCounter_some, usageCounter_some, usageCounter_some, get_mergedUsage, if_pos (by decide), h]
  exact ⟨rfl, rfl⟩

/-- The last report accounts like the merged one exactly when it repeats the counters. -/
theorem repeatsCounters_iff (hdelta : AnthropicUsage delta)
    (houtput : delta.get "output_tokens" ≠ none) (event event' : UsageEvent) :
    (responsesUsage (some delta) = responsesUsage (some (mergedUsage started delta)) ∧
      tokens (applyUsage event delta) = tokens (applyUsage event' (mergedUsage started delta))) ↔
    RepeatsCounters started delta := by
  rw [responsesUsage_eq_iff, tokens_applyUsage hdelta, tokens_applyUsage (anthropicUsage_merged _ _),
    usageCounter_merged_output houtput]
  constructor
  · rintro ⟨⟨hinput, -, hread, hwrite, httl⟩, htokens⟩
    refine ⟨fun hnone => ?_, (usageCounter_merged (by decide)).mp hread.symm,
      (usageCounter_merged (by decide)).mp hwrite.symm, cacheWriteTtl_merged.mp httl.symm⟩
    obtain ⟨hmerged, hmissing⟩ := @usageCounter_merged_input started delta hnone
    rw [hmerged, hmissing] at hinput htokens
    rw [← hread, ← hwrite] at htokens
    cases hstarted : usageCounter started "input_tokens" with
    | none => exact .inl rfl
    | some n =>
      rw [hstarted] at hinput htokens
      obtain rfl : 0 = n := hinput
      refine .inr ⟨rfl, ?_⟩
      by_contra hnot
      rw [not_or, Bool.not_eq_true, Bool.not_eq_true, Option.isSome_eq_false_iff,
        Option.isSome_eq_false_iff, Option.isNone_iff_eq_none, Option.isNone_iff_eq_none] at hnot
      rw [hnot.1, hnot.2] at htokens
      simp [tokensOf, inputTokensOf] at htokens
  · intro h
    have hread := (usageCounter_merged (by decide)).mpr h.cacheRead
    have hwrite := (usageCounter_merged (by decide)).mpr h.cacheWrite
    rw [hread, hwrite, cacheWriteTtl_merged.mpr h.ttl]
    by_cases hnone : delta.get "input_tokens" = none
    · obtain ⟨hmerged, hmissing⟩ := @usageCounter_merged_input started delta hnone
      rw [hmerged, hmissing]
      rcases h.input hnone with hstarted | ⟨hzero, hcached⟩
      · rw [hstarted]
        exact ⟨⟨rfl, rfl, rfl, rfl, rfl⟩, rfl⟩
      · rw [hzero]
        refine ⟨⟨rfl, rfl, rfl, rfl, rfl⟩, ?_⟩
        have hinput : ∀ i : Option Nat, i.getD 0 = 0 →
            inputTokensOf i (usageCounter delta "cache_read_input_tokens")
              (usageCounter delta "cache_creation_input_tokens") =
            inputTokensOf none (usageCounter delta "cache_read_input_tokens")
              (usageCounter delta "cache_creation_input_tokens") := by
          intro i hi
          have hsome : ((usageCounter delta "cache_read_input_tokens").isSome ||
              (usageCounter delta "cache_creation_input_tokens").isSome) = true := by
            rw [Bool.or_eq_true]
            exact hcached
          rw [inputTokensOf, inputTokensOf, if_pos hsome, if_pos hsome, hi]
          rfl
        rw [hinput (some 0) rfl]
    · have hinput := (@usageCounter_merged started delta "input_tokens" (by decide)).mpr
        fun h => absurd h hnone
      rw [hinput]
      exact ⟨⟨rfl, rfl, rfl, rfl, rfl⟩, rfl⟩

/-- The usage of a streamed message is that of the complete message, in the response of the bridge
and in the account of a native stream, exactly when the last delta repeats the counters of the
start. -/
theorem streamed_usage_iff {lib : Libraries} {chunks : List (List UInt8)} {started delta : Json}
    (hbridge : DeliversUsage lib.serde chunks started delta) {request : MessagesBridgeRequest}
    {response : MessagesBridgeResponse}
    (hresponse : (pushAll eventEnd (MessagesStream.handleEvent lib) MessagesStream.terminal
      (MessagesStreamBridge.new request) chunks).core.completed = some response)
    {classifier : Classifier} {inputs : List (Nat × Upstream)} {event : UsageEvent}
    {capturesResponse : Bool} {droppedAt : Nat} {completion : Completion}
    (hnative : DeliversUsage lib.serde (chunksOf inputs) started delta)
    (hwire : event.wireApi = .messages) (hsuccess : event.success = true)
    (hcompletions : (((UsageStream.new event capturesResponse).run lib.serde classifier
      inputs).drop droppedAt).core.completions = [completion])
    (hgood : completion.event.success = true) {body : List UInt8} {message : Json}
    (hbody : lib.serde.fromSlice body = some message)
    (hmessage : message.get "usage" = some (mergedUsage started delta))
    (hdelta : AnthropicUsage delta) (houtput : delta.get "output_tokens" ≠ none) :
    (response.responseBody.usage = responsesUsage (some (mergedUsage started delta)) ∧
      tokens completion.event = tokens (populateTokens lib.serde event body)) ↔
    RepeatsCounters started delta := by
  have hfind : findUsage message = some (mergedUsage started delta) := by
    rw [findUsage, hmessage]
    rfl
  have hpopulate : tokens (populateTokens lib.serde event body) =
      tokens (applyUsage event (mergedUsage started delta)) := by
    rw [populateTokens, hbody]
    dsimp only
    rw [hfind]
    rfl
  rw [hbridge.bridge hresponse, hpopulate,
    hnative.native capturesResponse (by rw [hwire]; decide) hsuccess hcompletions hgood]
  exact repeatsCounters_iff hdelta houtput event event

/-! ## Two streams -/

def answerStart (started : Json) : Json :=
  .ofFields [("type", .string "message_start"),
    ("message", .ofFields [("id", .string "m"), ("usage", started)])]

def answerMiddle (delta : Json) : List Json :=
  [.ofFields [("type", .string "content_block_start"), ("index", .ofNat 0),
      ("content_block", .ofFields [("type", .string "text"), ("text", .string "hi")])],
    .ofFields [("type", .string "content_block_stop"), ("index", .ofNat 0)],
    .ofFields [("type", .string "message_delta"), ("usage", delta)]]

def answerStop : Json := .ofFields [("type", .string "message_stop")]

/-- The events of a short answer; the usage is that of its start and of its last delta. -/
def answerValues (started delta : Json) : List Json :=
  answerStart started :: (answerMiddle delta ++ [answerStop])

/-- The complete message, as far as the usage goes. -/
def answerMessage (started delta : Json) : Json :=
  .ofFields [("id", .string "m"), ("usage", mergedUsage started delta)]

def answerLibraries (started delta : Json) : Libraries :=
  { Libraries.ofTexts [] with
    serde := .ofValues (answerMessage started delta :: answerValues started delta) }

def answerChunks (started delta : Json) : List (List UInt8) :=
  (answerValues started delta).map fun value => utf8 "data: " ++ value.printBytes ++ utf8 "\n\n"

def answerInputs (started delta : Json) : List (Nat × Upstream) :=
  (answerChunks started delta).map fun chunk => (1, .chunk chunk)

def answerRequest : MessagesBridgeRequest :=
  { upstreamBody := .null, state := .new "model" .disabled, responseScope := "" }

def cachedStart : Json :=
  .ofFields [("input_tokens", .ofNat 100), ("cache_read_input_tokens", .ofNat 40)]

def outputDelta : Json := .ofFields [("output_tokens", .ofNat 10)]

/-- A delta with all the counters. -/
def wholeDelta : Json :=
  .ofFields [("input_tokens", .ofNat 100), ("cache_read_input_tokens", .ofNat 40),
    ("output_tokens", .ofNat 10)]

/-- What the bridge gives for a short answer. -/
def answerResponse (started delta : Json) : Option MessagesBridgeResponse :=
  (pushAll eventEnd (MessagesStream.handleEvent (answerLibraries started delta))
    MessagesStream.terminal (MessagesStreamBridge.new answerRequest)
    (answerChunks started delta)).core.completed

/-- How a native stream of a short answer is accounted. -/
def answerCompletions (started delta : Json) : List Completion :=
  (((UsageStream.new freshEvent false).run (answerLibraries started delta).serde
    ⟨fun _ _ => none, fun _ => .null⟩ (answerInputs started delta)).drop 9).core.completions

/-- The events of a short answer are those of a message as Anthropic sends it. -/
def AnswerRead (started delta : Json) : Prop :=
  eventValues (answerLibraries started delta).serde
      (framesOf eventEnd (answerChunks started delta)) = answerValues started delta ∧
    (∀ event ∈ framesOf eventEnd (answerChunks started delta), eventData event ≠ utf8 "[DONE]") ∧
    (∀ value ∈ answerValues started delta,
      findUsage value = if eventKind value = some "message_delta" then value.get "usage" else none) ∧
    ((answerValues started delta).filterMap findUsage).getLast? = some delta ∧
    eventKind (answerStart started) = some "message_start" ∧
    getIn (answerStart started) "message" "usage" = some started ∧
    eventKind answerStop = some "message_stop" ∧
    ∀ value ∈ answerMiddle delta,
      eventKind value ≠ some "message_start" ∧ outcomeOf (eventKind value) = none

instance (started delta : Json) : Decidable (AnswerRead started delta) := by
  unfold AnswerRead
  infer_instance

theorem AnswerRead.delivers (h : AnswerRead started delta) :
    DeliversUsage (answerLibraries started delta).serde (answerChunks started delta) started
      delta := by
  obtain ⟨hvalues, hjson, hreports, hlast, hstart, hstarted, hstop, hmiddle⟩ := h
  rw [← hvalues] at hreports hlast
  exact ⟨⟨answerStart started, answerMiddle delta, answerStop, hvalues, hstart, hstarted, hstop,
    hmiddle⟩, hreports, hlast, hjson⟩

/-- The delta leaves the counters of the input out: the bridge reports no input tokens, and neither
does the native stream. The complete message has 140. -/
theorem input_counters_lost :
    AnswerRead cachedStart outputDelta ∧
    (answerResponse cachedStart outputDelta).map (fun response => response.responseBody.usage) =
      some (responsesUsage (some outputDelta)) ∧
    responsesUsage (some outputDelta) ≠ responsesUsage (some (mergedUsage cachedStart outputDelta)) ∧
    (answerCompletions cachedStart outputDelta).map (fun completion => tokens completion.event) =
      [[none, none, none, some 10, none]] ∧
    tokens (populateTokens (answerLibraries cachedStart outputDelta).serde freshEvent
      (answerMessage cachedStart outputDelta).printBytes) =
      [some 140, some 40, none, some 10, some 150] := by
  decide +kernel

/-- With all counters in the delta nothing is lost. -/
theorem streamed_usage_wholeDelta :
    ∃ response completion, answerResponse cachedStart wholeDelta = some response ∧
      answerCompletions cachedStart wholeDelta = [completion] ∧
      response.responseBody.usage = responsesUsage (some (mergedUsage cachedStart wholeDelta)) ∧
      tokens completion.event = tokens (populateTokens (answerLibraries cachedStart wholeDelta).serde
        freshEvent (answerMessage cachedStart wholeDelta).printBytes) := by
  have hfacts : AnswerRead cachedStart wholeDelta ∧
      (answerResponse cachedStart wholeDelta).isSome ∧
      (answerCompletions cachedStart wholeDelta).length = 1 ∧
      (∀ completion ∈ answerCompletions cachedStart wholeDelta, completion.event.success = true) ∧
      chunksOf (answerInputs cachedStart wholeDelta) = answerChunks cachedStart wholeDelta ∧
      (answerLibraries cachedStart wholeDelta).serde.fromSlice
        (answerMessage cachedStart wholeDelta).printBytes =
          some (answerMessage cachedStart wholeDelta) ∧
      (answerMessage cachedStart wholeDelta).get "usage" =
        some (mergedUsage cachedStart wholeDelta) ∧
      AnthropicUsage wholeDelta ∧ wholeDelta.get "output_tokens" ≠ none ∧
      wholeDelta.get "input_tokens" ≠ none ∧ wholeDelta.get "cache_read_input_tokens" ≠ none ∧
      usageCounter cachedStart "cache_creation_input_tokens" = none ∧
      cacheWriteTtlFromUsage cachedStart = none := by
    decide +kernel
  obtain ⟨hread, hresponse, hone, hgood, hchunks, hbody, hmessage, hdelta, houtput, hinput, hcached,
    hwritten, httl⟩ := hfacts
  obtain ⟨response, hresponse⟩ := Option.isSome_iff_exists.mp hresponse
  obtain ⟨completion, hcompletion⟩ := List.length_eq_one_iff.mp hone
  have hrepeats : RepeatsCounters cachedStart wholeDelta :=
    ⟨fun h => absurd h hinput, fun h => absurd h hcached, fun _ => hwritten, fun _ => httl⟩
  have hsuccess : completion.event.success = true :=
    hgood completion (by rw [hcompletion]; exact List.mem_singleton_self completion)
  have hsame := (streamed_usage_iff hread.delivers hresponse (hchunks.symm ▸ hread.delivers) rfl rfl
    hcompletion hsuccess hbody hmessage hdelta houtput).mpr hrepeats
  exact ⟨response, completion, hresponse, hcompletion, hsame.1, hsame.2⟩

end Zenith.Gateway
