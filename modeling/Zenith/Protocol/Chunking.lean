import Mathlib
import Zenith.Lib.Encoding
import Zenith.Protocol.GeminiStream
import Zenith.Protocol.MessagesStream

/-!
# Chunks and events

How the bytes of a stream are cut into chunks must not matter. It does not, as long as no event
with carriage returns comes before one without: `event_end` looks for the empty line of the latter
in the whole buffer first, so it runs over the end of the former when both are there.
-/

namespace Zenith.Protocol

open Zenith.Bytes Zenith.Framing

/-! ## Streams of events -/

inductive LineEnd
  | lf
  | crlf
deriving DecidableEq, Repr

def LineEnd.bytes : LineEnd → List UInt8
  | .lf => [Protocol.lf]
  | .crlf => [cr, Protocol.lf]

/-- An event: at least one line, and all lines end in the same way. -/
structure SseEvent where
  lineEnd : LineEnd
  lines : List (List UInt8)
  lines_nonempty : lines ≠ []
  lines_plain : ∀ line ∈ lines, line ≠ [] ∧ lf ∉ line ∧ cr ∉ line

/-- The lines with their ends; the last one is empty. -/
def SseEvent.bytes (event : SseEvent) : List UInt8 :=
  (event.lines ++ [[]]).flatMap fun line => line ++ event.lineEnd.bytes

def streamBytes (events : List SseEvent) : List UInt8 := (events.map SseEvent.bytes).flatten

/-- No event with carriage returns comes before one without. -/
def LineFeedsFirst (events : List SseEvent) : Prop :=
  events.Pairwise fun a b => a.lineEnd = .crlf → b.lineEnd = .crlf

/-! ## Where events end -/

theorem not_lfLf_lead {b : UInt8} {l : List UInt8} (h : b ≠ lf) : ¬ [lf, lf] <+: lf :: b :: l := by
  intro hlead
  have hrest := (List.cons_prefix_cons.mp hlead).2
  exact h (List.cons_prefix_cons.mp hrest).1.symm

variable {lines : List (List UInt8)}

/-- An event with line feeds ends at its first empty line. -/
theorem findInfix_lfLf (hne : lines ≠ [])
    (hplain : ∀ line ∈ lines, line ≠ [] ∧ lf ∉ line) :
    (findInfix [lf, lf] ((lines ++ [[]]).flatMap fun line => line ++ [lf])).map (· + 2) =
      some ((lines ++ [[]]).flatMap fun line => line ++ [lf]).length := by
  induction lines with
  | nil => exact absurd rfl hne
  | cons line lines ih =>
    rw [List.forall_mem_cons] at hplain
    rw [List.cons_append, List.flatMap_cons, List.append_assoc,
      findInfix_append_of_not_mem _ hplain.1.2, List.singleton_append]
    cases lines with
    | nil =>
      show (some (0 + line.length)).map (· + 2) = _
      simp
    | cons next lines =>
      have hih := ih (List.cons_ne_nil _ _) hplain.2
      obtain ⟨b, next', rfl⟩ := List.exists_cons_of_ne_nil (hplain.2 next List.mem_cons_self).1
      have hb : b ≠ lf := fun heq =>
        (hplain.2 _ List.mem_cons_self).2 (heq ▸ List.mem_cons_self)
      -- The next line starts with another byte, so the search goes on behind the line feed.
      obtain ⟨rest, hrest⟩ : ∃ rest, (((b :: next') :: lines ++ [[]]).flatMap
          fun line => line ++ [lf]) = b :: rest := ⟨_, rfl⟩
      rw [hrest] at hih ⊢
      rw [findInfix_cons_of_not (not_lfLf_lead hb)]
      obtain ⟨n, hn, hlen⟩ := Option.map_eq_some_iff.mp hih
      rw [hn]
      simp only [Option.map_some, Option.some.injEq, List.length_append, List.length_cons] at hlen ⊢
      omega

theorem not_crLf_lead {b : UInt8} {l : List UInt8} (h : b ≠ cr) :
    ¬ [cr, lf, cr, lf] <+: cr :: lf :: b :: l := by
  intro hlead
  have hlf := (List.cons_prefix_cons.mp hlead).2
  have hcr := (List.cons_prefix_cons.mp hlf).2
  exact h (List.cons_prefix_cons.mp hcr).1.symm

theorem not_crLf_lead_lf (l : List UInt8) : ¬ [cr, lf, cr, lf] <+: lf :: l := by
  intro hlead
  exact absurd (List.cons_prefix_cons.mp hlead).1 (by decide)

/-- An event with carriage returns ends at its first empty line. -/
theorem findInfix_crLf (hne : lines ≠ [])
    (hplain : ∀ line ∈ lines, line ≠ [] ∧ cr ∉ line) :
    (findInfix [cr, lf, cr, lf] ((lines ++ [[]]).flatMap fun line => line ++ [cr, lf])).map (· + 4) =
      some ((lines ++ [[]]).flatMap fun line => line ++ [cr, lf]).length := by
  induction lines with
  | nil => exact absurd rfl hne
  | cons line lines ih =>
    rw [List.forall_mem_cons] at hplain
    rw [List.cons_append, List.flatMap_cons, List.append_assoc,
      findInfix_append_of_not_mem _ hplain.1.2]
    cases lines with
    | nil =>
      show (some (0 + line.length)).map (· + 4) = _
      simp
    | cons next lines =>
      have hih := ih (List.cons_ne_nil _ _) hplain.2
      obtain ⟨b, next', rfl⟩ := List.exists_cons_of_ne_nil (hplain.2 next List.mem_cons_self).1
      have hb : b ≠ cr := fun heq =>
        (hplain.2 _ List.mem_cons_self).2 (heq ▸ List.mem_cons_self)
      obtain ⟨rest, hrest⟩ : ∃ rest, (((b :: next') :: lines ++ [[]]).flatMap
          fun line => line ++ [cr, lf]) = b :: rest := ⟨_, rfl⟩
      rw [hrest] at hih ⊢
      rw [List.cons_append, List.singleton_append,
        findInfix_cons_of_not (not_crLf_lead hb), findInfix_cons_of_not (not_crLf_lead_lf _)]
      obtain ⟨n, hn, hlen⟩ := Option.map_eq_some_iff.mp hih
      rw [hn]
      simp only [Option.map_some, Option.some.injEq, List.length_append, List.length_cons] at hlen ⊢
      omega

/-- Lines that end in a carriage return and a line feed have no empty line of the other kind. -/
theorem findInfix_lfLf_none (hplain : ∀ line ∈ lines, lf ∉ line) :
    findInfix [lf, lf] (lines.flatMap fun line => line ++ [cr, lf]) = none := by
  induction lines with
  | nil => rfl
  | cons line lines ih =>
    rw [List.forall_mem_cons] at hplain
    have hskipped : lf ∉ line ++ [cr] := by
      rw [List.mem_append, not_or]
      exact ⟨hplain.1, by decide⟩
    have hsplit : (line :: lines).flatMap (fun line => line ++ [cr, lf]) =
        (line ++ [cr]) ++ lf :: lines.flatMap (fun line => line ++ [cr, lf]) := by
      simp
    rw [hsplit, findInfix_append_of_not_mem _ hskipped, findInfix_cons_of_not, ih hplain.2]
    · rfl
    · cases lines with
      | nil => decide
      | cons next lines =>
        cases next with
        | nil => exact not_lfLf_lead (by decide)
        | cons b next =>
          have hb : b ≠ lf := fun heq =>
            hplain.2 (b :: next) List.mem_cons_self (heq ▸ List.mem_cons_self)
          exact not_lfLf_lead hb

namespace SseEvent

theorem lines_lf (event : SseEvent) : ∀ line ∈ event.lines ++ [[]], lf ∉ line := by
  intro line hmem
  rcases List.mem_append.mp hmem with hmem | hmem
  · exact (event.lines_plain line hmem).2.1
  · rw [List.mem_singleton.mp hmem]
    exact List.not_mem_nil

theorem findInfix_lfLf_of_lf {event : SseEvent} (h : event.lineEnd = .lf) :
    (findInfix [lf, lf] event.bytes).map (· + 2) = some event.bytes.length := by
  rw [bytes, h]
  exact findInfix_lfLf event.lines_nonempty fun line hmem =>
    ⟨(event.lines_plain line hmem).1, (event.lines_plain line hmem).2.1⟩

theorem findInfix_crLf_of_crlf {event : SseEvent} (h : event.lineEnd = .crlf) :
    (findInfix [cr, lf, cr, lf] event.bytes).map (· + 4) = some event.bytes.length := by
  rw [bytes, h]
  exact findInfix_crLf event.lines_nonempty fun line hmem =>
    ⟨(event.lines_plain line hmem).1, (event.lines_plain line hmem).2.2⟩

theorem bytes_nonempty (event : SseEvent) : event.bytes ≠ [] := by
  obtain ⟨line, lines, hlines⟩ := List.exists_cons_of_ne_nil event.lines_nonempty
  have hline := (event.lines_plain line (hlines ▸ List.mem_cons_self)).1
  rw [bytes, hlines, List.cons_append, List.flatMap_cons]
  intro hnil
  exact hline (List.append_eq_nil_iff.mp (List.append_eq_nil_iff.mp hnil).1).1

end SseEvent

variable {events : List SseEvent}

theorem streamBytes_crlf (h : ∀ event ∈ events, event.lineEnd = .crlf) :
    streamBytes events = (events.flatMap fun event => event.lines ++ [[]]).flatMap
      fun line => line ++ [cr, lf] := by
  induction events with
  | nil => rfl
  | cons event events ih =>
    rw [List.forall_mem_cons] at h
    rw [List.flatMap_cons, List.flatMap_append, ← ih h.2, streamBytes, List.map_cons,
      List.flatten_cons, SseEvent.bytes, h.1]
    rfl

/-- A stream with carriage returns only has no empty line of the other kind. -/
theorem findInfix_lfLf_streamBytes (h : ∀ event ∈ events, event.lineEnd = .crlf) :
    findInfix [lf, lf] (streamBytes events) = none := by
  rw [streamBytes_crlf h]
  refine findInfix_lfLf_none fun line hmem => ?_
  obtain ⟨event, -, hline⟩ := List.mem_flatMap.mp hmem
  exact event.lines_lf line hline

variable {event : SseEvent}

theorem eventEnd_of_lf (h : event.lineEnd = .lf) (following : List UInt8) :
    eventEnd (event.bytes ++ following) = some event.bytes.length := by
  obtain ⟨n, hn, hlen⟩ := Option.map_eq_some_iff.mp (event.findInfix_lfLf_of_lf h)
  rw [eventEnd, findInfix_append_of_some hn, Option.map_some, hlen, Option.some_or]

theorem eventEnd_of_crlf (h : event.lineEnd = .crlf) {following : List UInt8}
    (hnone : findInfix [lf, lf] (event.bytes ++ following) = none) :
    eventEnd (event.bytes ++ following) = some event.bytes.length := by
  obtain ⟨n, hn, hlen⟩ := Option.map_eq_some_iff.mp (event.findInfix_crLf_of_crlf h)
  rw [eventEnd, hnone, findInfix_append_of_some hn, Option.map_some, hlen, Option.map_none,
    Option.none_or]

theorem SseEvent.cr_not_mem (h : event.lineEnd = .lf) : cr ∉ event.bytes := by
  rw [SseEvent.bytes, h]
  intro hmem
  obtain ⟨line, hline, hmem⟩ := List.mem_flatMap.mp hmem
  rcases List.mem_append.mp hmem with hcr | hcr
  · rcases List.mem_append.mp hline with hline | hline
    · exact (event.lines_plain line hline).2.2 hcr
    · rw [List.mem_singleton.mp hline] at hcr
      exact List.not_mem_nil hcr
  · exact absurd hcr (by decide)

/-- An event with line feeds ends in two of them. -/
theorem SseEvent.exists_lfLf (h : event.lineEnd = .lf) :
    ∃ start, event.bytes = start ++ [lf, lf] := by
  obtain ⟨lines, line, hlines⟩ := (List.eq_nil_or_concat' event.lines).resolve_left
    event.lines_nonempty
  refine ⟨(lines.flatMap fun line => line ++ [lf]) ++ line, ?_⟩
  rw [SseEvent.bytes, h, hlines]
  simp [LineEnd.bytes]

theorem SseEvent.findInfix_lfLf_of_crlf (h : event.lineEnd = .crlf) :
    findInfix [lf, lf] event.bytes = none := by
  have hnone := @findInfix_lfLf_streamBytes [event] (by simpa using h)
  simpa [streamBytes] using hnone

/-- No end is found in a part of an event. -/
theorem eventEnd_part {part : List UInt8} (hlead : part <+: event.bytes)
    (hlt : part.length < event.bytes.length) : eventEnd part = none := by
  cases h : event.lineEnd with
  | lf =>
    have hcr : cr ∉ part := fun hmem => SseEvent.cr_not_mem h (hlead.subset hmem)
    rw [eventEnd, findInfix_part (event.findInfix_lfLf_of_lf h) hlead hlt,
      findInfix_of_not_mem hcr]
    rfl
  | crlf =>
    rw [eventEnd, findInfix_none_of_lead hlead (SseEvent.findInfix_lfLf_of_crlf h),
      findInfix_part (event.findInfix_crLf_of_crlf h) hlead hlt]
    rfl

/-! ## Delivery -/

/-- Every event is delivered as its own event once it is in the buffer, whatever part of the rest of
the stream follows it there. -/
def EventsDelivered (events : List SseEvent) : Prop :=
  ∀ event rest following, event :: rest <:+ events → following <+: streamBytes rest →
    eventEnd (event.bytes ++ following) = some event.bytes.length

/-- An event with carriage returns is not delivered when one without is in the buffer too: the end of
the latter is found. -/
theorem not_eventEnd_of_lf {event later : SseEvent} {rest : List SseEvent}
    (hevent : event.lineEnd = .crlf) (hlater : later.lineEnd = .lf) (hmem : later ∈ rest) :
    eventEnd (event.bytes ++ streamBytes rest) ≠ some event.bytes.length := by
  intro hend
  have hfound : findInfix [lf, lf] (event.bytes ++ streamBytes rest) ≠ none := by
    intro hnone
    obtain ⟨before, after, rfl⟩ := List.append_of_mem hmem
    obtain ⟨start, hstart⟩ := later.exists_lfLf hlater
    have hsplit : event.bytes ++ streamBytes (before ++ later :: after) =
        (event.bytes ++ streamBytes before ++ start) ++ ([lf, lf] ++ streamBytes after) := by
      simp [streamBytes, hstart]
    rw [hsplit] at hnone
    exact findInfix_ne_none _ _ hnone
  obtain ⟨n, hn⟩ := Option.ne_none_iff_exists'.mp hfound
  rw [eventEnd, hn, Option.map_some, Option.some_or, Option.some.injEq] at hend
  have hinside := findInfix_of_append hn (by rw [← hend]; rfl)
  rw [SseEvent.findInfix_lfLf_of_crlf hevent] at hinside
  exact nomatch hinside

theorem eventsDelivered_iff (events : List SseEvent) :
    EventsDelivered events ↔ LineFeedsFirst events := by
  constructor
  · intro h
    induction events with
    | nil => exact List.Pairwise.nil
    | cons event events ih =>
      refine List.pairwise_cons.mpr ⟨fun later hmem hcrlf => ?_, ih ?_⟩
      · cases hlater : later.lineEnd with
        | crlf => rfl
        | lf =>
          have hend := h event events _ (List.suffix_refl _) List.prefix_rfl
          exact absurd hend (not_eventEnd_of_lf hcrlf hlater hmem)
      · exact fun event' rest following hsuffix =>
          h event' rest following (hsuffix.trans (List.suffix_cons _ _))
  · intro h event rest following hsuffix hfollowing
    cases hevent : event.lineEnd with
    | lf => exact eventEnd_of_lf hevent following
    | crlf =>
      have hrest := (List.pairwise_cons.mp (h.sublist hsuffix.sublist)).1
      refine eventEnd_of_crlf hevent ?_
      have hnone := @findInfix_lfLf_streamBytes (event :: rest) (by
        rw [List.forall_mem_cons]
        exact ⟨hevent, fun later hmem => hrest later hmem hevent⟩)
      have hlead : event.bytes ++ following <+: streamBytes (event :: rest) := by
        rw [streamBytes, List.map_cons, List.flatten_cons]
        exact (List.prefix_append_right_inj _).mpr hfollowing
      exact findInfix_none_of_lead hlead hnone

theorem eventEnd_nil : eventEnd [] = none := rfl

theorem delivered_of_eventsDelivered (h : EventsDelivered events) :
    Delivered eventEnd (events.map SseEvent.bytes) where
  complete frame rest following hsuffix hfollowing := by
    obtain ⟨before, hsplit⟩ := hsuffix
    obtain ⟨left, right, rfl, -, hright⟩ := List.map_eq_append_iff.mp hsplit.symm
    obtain ⟨event, rest, rfl, rfl, rfl⟩ := List.map_eq_cons_iff.mp hright
    exact h event rest following (List.suffix_append _ _) hfollowing
  incomplete frame hmem part hlead hlt := by
    obtain ⟨event, -, rfl⟩ := List.mem_map.mp hmem
    exact eventEnd_part hlead hlt
  nonempty frame hmem := by
    obtain ⟨event, -, rfl⟩ := List.mem_map.mp hmem
    exact event.bytes_nonempty

/-! ## The bridges -/

/-- What the client of a bridge sees: the frames, the completed response and whether the bridge is
through. -/
structure Outcome where
  frames : List (List UInt8)
  completed : Option MessagesBridgeResponse
  terminal : Bool

def messagesOutcome (lib : Libraries) (request : MessagesBridgeRequest)
    (chunks : List (List UInt8)) : Outcome :=
  let bridge := (chunks.foldl (MessagesStreamBridge.push lib) (.new request)).finish
  { frames := bridge.core.output.map (Frame.bytes lib.serde)
    completed := bridge.core.completed
    terminal := bridge.core.terminal }

def geminiOutcome (lib : Libraries) (request : GeminiBridgeRequest) (chunks : List (List UInt8)) :
    Outcome :=
  let bridge := (chunks.foldl (GeminiStreamBridge.push lib) (.new request)).finish lib
  { frames := bridge.core.output.map (Frame.bytes lib.serde)
    completed := bridge.core.completed
    terminal := bridge.core.terminal }

/-- Chunks do not matter: every event is delivered as its own event, and any two ways to cut the
stream lead to the same outcome. -/
structure ChunkingInvariant (lib : Libraries) (events : List SseEvent) : Prop where
  delivered : EventsDelivered events
  messages : ∀ request chunks chunks', chunks.flatten = streamBytes events →
    chunks'.flatten = streamBytes events →
    messagesOutcome lib request chunks = messagesOutcome lib request chunks'
  gemini : ∀ request chunks chunks', chunks.flatten = streamBytes events →
    chunks'.flatten = streamBytes events →
    geminiOutcome lib request chunks = geminiOutcome lib request chunks'

/-- Chunks do not matter exactly when no event with carriage returns comes before one without. -/
theorem chunkingInvariant_iff (lib : Libraries) (events : List SseEvent) :
    ChunkingInvariant lib events ↔ LineFeedsFirst events := by
  constructor
  · exact fun h => (eventsDelivered_iff events).mp h.delivered
  · intro h
    have hevents := (eventsDelivered_iff events).mpr h
    have hdelivered := delivered_of_eventsDelivered hevents
    refine ⟨hevents, fun request chunks chunks' hchunks hchunks' => ?_,
      fun request chunks chunks' hchunks hchunks' => ?_⟩
    · have hpush : ∀ chunks : List (List UInt8), chunks.flatten = streamBytes events →
          chunks.foldl (MessagesStreamBridge.push lib) (.new request) =
            { core := handleAll (MessagesStream.handleEvent lib) MessagesStream.terminal
                (.new request) (events.map SseEvent.bytes) } :=
        fun _ => pushAll_eq_handleAll hdelivered eventEnd_nil (MessagesStream.new request)
      rw [messagesOutcome, messagesOutcome, hpush chunks hchunks, hpush chunks' hchunks']
    · have hpush : ∀ chunks : List (List UInt8), chunks.flatten = streamBytes events →
          chunks.foldl (GeminiStreamBridge.push lib) (.new request) =
            { core := handleAll (GeminiStream.handleEvent lib) GeminiStream.terminal
                (.new request) (events.map SseEvent.bytes) } :=
        fun _ => pushAll_eq_handleAll hdelivered eventEnd_nil (GeminiStream.new request)
      rw [geminiOutcome, geminiOutcome, hpush chunks hchunks, hpush chunks' hchunks']

/-! ## A stream that is torn apart -/

def startText : String :=
  "\x7b\"type\":\"message_start\",\"message\":\x7b\"id\":\"a\"\x7d\x7d"

def startValue : Json :=
  .ofFields [("type", .string "message_start"), ("message", .ofFields [("id", .string "a")])]

def pingText : String := "\x7b\"type\":\"ping\"\x7d"

def pingValue : Json := .ofFields [("type", .string "ping")]

theorem notMem_dataField : lf ∉ utf8 "data:" ∧ cr ∉ utf8 "data:" := by
  decide +kernel

/-- An event with one line of data. -/
def dataEvent (lineEnd : LineEnd) (text : String) (h : lf ∉ utf8 text ∧ cr ∉ utf8 text) : SseEvent where
  lineEnd
  lines := [utf8 "data:" ++ utf8 text]
  lines_nonempty := List.cons_ne_nil _ _
  lines_plain := by
    intro line hmem
    rw [List.mem_singleton.mp hmem]
    refine ⟨by simp [utf8], ?_, ?_⟩
    · exact fun hlf => (List.mem_append.mp hlf).elim notMem_dataField.1 h.1
    · exact fun hcr => (List.mem_append.mp hcr).elim notMem_dataField.2 h.2

/-- A text whose characters are no ends of lines. -/
theorem plain_ofList {chars : List Char}
    (h : (chars.all fun char => lf ∉ String.utf8EncodeChar char ∧ cr ∉ String.utf8EncodeChar char) = true) :
    lf ∉ utf8 (String.ofList chars) ∧ cr ∉ utf8 (String.ofList chars) := by
  simp only [List.all_eq_true, decide_eq_true_eq] at h
  simp only [utf8, String.toList_ofList, List.mem_flatMap, not_exists, not_and]
  exact ⟨fun char hmem => (h char hmem).1, fun char hmem => (h char hmem).2⟩

theorem plain_append {left right : String} (hleft : lf ∉ utf8 left ∧ cr ∉ utf8 left)
    (hright : lf ∉ utf8 right ∧ cr ∉ utf8 right) : lf ∉ utf8 (left ++ right) ∧ cr ∉ utf8 (left ++ right) := by
  simp only [utf8_append, List.mem_append, not_or]
  exact ⟨⟨hleft.1, hright.1⟩, ⟨hleft.2, hright.2⟩⟩

theorem head?_utf8_append {left : String} {byte : UInt8} (h : (utf8 left).head? = some byte) (right : String) :
    (utf8 (left ++ right)).head? = some byte := by
  obtain ⟨rest, hrest⟩ := List.head?_eq_some_iff.mp h
  rw [utf8_append, hrest]
  rfl

theorem dataFields_dataEvent {text : String} (h : lf ∉ utf8 text ∧ cr ∉ utf8 text) :
    dataFields (dataEvent .lf text h).bytes = [utf8 text] := by
  have hplain := (dataEvent .lf text h).lines_plain (utf8 "data:" ++ utf8 text) List.mem_cons_self
  have hbytes : (dataEvent .lf text h).bytes = (utf8 "data:" ++ utf8 text) ++ lf :: [lf] := by
    simp [SseEvent.bytes, dataEvent, LineEnd.bytes]
  have hlast : (utf8 "data:" ++ utf8 text).getLast? ≠ some cr := fun hcr => hplain.2.2 (List.mem_of_getLast? hcr)
  have hrest : (List.splitOn lf [lf]).filterMap (fun line => stripPrefix? (utf8 "data:")
      (if line.getLast? = some cr then line.dropLast else line)) = [] := by decide +kernel
  rw [dataFields, eventLines, hbytes, List.splitOn_append_cons_self, List.splitOn_eq_singleton hplain.2.1,
    List.filterMap_map, List.singleton_append, List.filterMap_cons, Function.comp_def, hrest]
  dsimp only
  rw [if_neg hlast, stripPrefix?, if_pos (List.prefix_append _ _), List.drop_left]

/-- The event is read as this value. -/
def SseEvent.Reads (lib : Libraries) (event : SseEvent) (value : Json) : Prop :=
  sseDone event.bytes = false ∧ parseSseData lib.serde event.bytes = some value

/-- An event with an object. -/
theorem reads_dataEvent {lib : Libraries} {text : String} {value : Json} (h : lf ∉ utf8 text ∧ cr ∉ utf8 text)
    (hhead : (utf8 text).head? = some 123) (hread : lib.serde.fromStr text = some value) :
    (dataEvent .lf text h).Reads lib value := by
  obtain ⟨rest, hrest⟩ := List.head?_eq_some_iff.mp hhead
  constructor
  · rw [sseDone, dataFields_dataEvent, List.any_cons, List.any_nil, Bool.or_false, decide_eq_false_iff_not, hrest]
    intro hdone
    have hprefix : trimAscii (123 :: rest) <+: 123 :: rest := by
      rw [trimAscii, List.dropWhile_cons_of_neg (by decide)]
      exact List.rdropWhile_prefix _ _
    rw [hdone, show utf8 "[DONE]" = 91 :: utf8 "DONE]" by decide +kernel] at hprefix
    exact absurd (List.cons_prefix_cons.mp hprefix).1 (by decide)
  · have hdata : eventData (dataEvent .lf text h).bytes = utf8 text := by
      rw [eventData, dataFields_dataEvent, List.foldl_cons, List.foldl_nil, if_pos rfl, stripPrefix?, if_neg,
        Option.getD_none]
      rw [hrest, show utf8 " " = [32] by decide +kernel]
      exact fun hspace => absurd (List.cons_prefix_cons.mp hspace).1 (by decide)
    rw [parseSseData, hdata, if_neg (by rw [hrest]; exact List.cons_ne_nil _ _)]
    exact hread

/-- The bridge handles the values of the events. -/
theorem push_reads {lib : Libraries} (request : GeminiBridgeRequest) {values : List Json}
    (hlines : ∀ event ∈ events, event.lineEnd = .lf)
    (hreads : List.Forall₂ (fun event value => event.Reads lib value) events values) :
    (events.map SseEvent.bytes).foldl (GeminiStreamBridge.push lib) (.new request) =
      { core := values.foldl (fun stream value => if stream.terminal then stream else stream.handleValue lib value)
          (.new request) } := by
  have hordered : LineFeedsFirst events :=
    List.Pairwise.imp_of_mem (fun hmem _ _ hcrlf => nomatch (hlines _ hmem).symm.trans hcrlf)
      (List.pairwise_of_forall fun _ _ => trivial)
  have hdelivered := delivered_of_eventsDelivered ((eventsDelivered_iff events).mpr hordered)
  have hpush : (events.map SseEvent.bytes).foldl (GeminiStreamBridge.push lib) (.new request) =
      { core := handleAll (GeminiStream.handleEvent lib) GeminiStream.terminal (.new request)
          (events.map SseEvent.bytes) } :=
    @pushAll_eq_handleAll UInt8 GeminiStream eventEnd (GeminiStream.handleEvent lib) GeminiStream.terminal
      (events.map SseEvent.bytes) hdelivered eventEnd_nil (GeminiStream.new request) (events.map SseEvent.bytes) rfl
  rw [hpush]
  generalize GeminiStream.new request = stream
  congr 1
  clear hlines hordered hdelivered hpush
  induction hreads generalizing stream with
  | nil => rfl
  | @cons event value events values hread _ ih =>
    rw [List.map_cons, handleAll, List.foldl_cons]
    by_cases hterminal : stream.terminal = true
    · rw [if_pos hterminal, if_pos hterminal, ← ih, handleAll_of_terminal hterminal]
    · rw [if_neg hterminal, if_neg hterminal, ih, GeminiStream.handleEvent, hread.1, hread.2]
      rfl

/-- The start of a message with carriage returns, then a ping without. -/
def mixedEvents : List SseEvent :=
  [dataEvent .crlf startText (by decide +kernel), dataEvent .lf pingText (by decide +kernel)]

def mixedLibraries : Libraries := .ofTexts [(startText, startValue), (pingText, pingValue)]

def sampleRequest : MessagesBridgeRequest where
  upstreamBody := .ofFields []
  state := .new "model" .disabled
  responseScope := ""

/-- In one chunk the two events are taken for one, which cannot be read; in two chunks the response
is created first. -/
theorem mixed_events_torn :
    [streamBytes mixedEvents].flatten = streamBytes mixedEvents ∧
    (mixedEvents.map SseEvent.bytes).flatten = streamBytes mixedEvents ∧
    messagesOutcome mixedLibraries sampleRequest [streamBytes mixedEvents] ≠
      messagesOutcome mixedLibraries sampleRequest (mixedEvents.map SseEvent.bytes) := by
  refine ⟨List.flatten_singleton, rfl, fun heq => ?_⟩
  have hlen := congrArg (fun outcome : Outcome => outcome.frames.length) heq
  have hone : (messagesOutcome mixedLibraries sampleRequest
      [streamBytes mixedEvents]).frames.length = 1 := by decide +kernel
  have htwo : (messagesOutcome mixedLibraries sampleRequest
      (mixedEvents.map SseEvent.bytes)).frames.length = 2 := by decide +kernel
  rw [hone, htwo] at hlen
  exact nomatch hlen

end Zenith.Protocol
