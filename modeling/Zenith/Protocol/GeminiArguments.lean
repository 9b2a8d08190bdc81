import Mathlib
import Zenith.Protocol.ArgumentPatches
import Zenith.Protocol.Chunking
import Zenith.Protocol.Deltas
import Zenith.Protocol.GeminiText

/-!
# The arguments of the calls of a Gemini stream

Every part of a call sends the new JSON text of its arguments as a delta of the text before. `Calling`
is what holds of a stream that goes on; each of its function calls is a `Line`. A part keeps the lines
whole exactly when it is `SteadyPart`: when the new text of the arguments starts with what was sent of
them. So the deltas of a completed stream make up the arguments exactly when all its parts were steady
(`arguments_reassemble_iff`).
-/

namespace Zenith.Protocol

open Zenith.Framing Zenith.Tables Zenith.Text

/-! ## What the client has -/

namespace Frame

/-- A delta of arguments, with the index of its output. -/
def argumentsDelta : Frame → Option (Nat × String)
  | .functionCallArgumentsDelta _ _ outputIndex delta => some (outputIndex, delta)
  | _ => none

/-- The arguments at the end of a call, with the index of its output. -/
def argumentsDone : Frame → Option (Nat × String)
  | .functionCallArgumentsDone _ _ _ _ _ outputIndex arguments => some (outputIndex, arguments)
  | _ => none

end Frame

/-- The deltas of the arguments of one output. -/
def deltasAt (index : Nat) (frames : List Frame) : List String :=
  ((frames.filterMap Frame.argumentsDelta).filter fun delta => delta.1 = index).map Prod.snd

theorem deltasAt_append (index : Nat) (frames frames' : List Frame) :
    deltasAt index (frames ++ frames') = deltasAt index frames ++ deltasAt index frames' := by
  rw [deltasAt, List.filterMap_append, List.filter_append, List.map_append]
  rfl

@[simp] theorem deltasAt_concat_delta (index : Nat) (frames : List Frame) (responseId : Option String)
    (itemId : String) (outputIndex : Nat) (delta : String) :
    deltasAt index
        (frames ++ [.functionCallArgumentsDelta responseId itemId outputIndex delta]) =
      deltasAt index frames ++ if outputIndex = index then [delta] else [] := by
  rw [deltasAt_append]
  by_cases h : outputIndex = index <;> simp [deltasAt, Frame.argumentsDelta, h]

/-- A frame that neither sends arguments nor ends them. -/
def Frame.Quiet (frame : Frame) : Prop := frame.argumentsDelta = none ∧ frame.argumentsDone = none

theorem Frame.Quiet.deltasAt {frame : Frame} (h : frame.Quiet) (index : Nat) (frames : List Frame) :
    deltasAt index (frames ++ [frame]) = Protocol.deltasAt index frames := by
  have hnone : Protocol.deltasAt index [frame] = [] := by simp [Protocol.deltasAt, h.1]
  rw [deltasAt_append, hnone, List.append_nil]

theorem Frame.Quiet.argumentsDone {frame : Frame} (h : frame.Quiet) (frames : List Frame) :
    (frames ++ [frame]).filterMap Frame.argumentsDone = frames.filterMap Frame.argumentsDone := by
  rw [List.filterMap_append, List.filterMap_cons_none h.2]
  exact List.append_nil _

/-- The deltas of every call put together are its arguments, or there was nothing to send of them. -/
def Reassembles (lib : Libraries) (frames : List Frame) : Prop :=
  ∀ index arguments, (index, arguments) ∈ frames.filterMap Frame.argumentsDone →
    String.join (deltasAt index frames) = arguments ∨
    deltasAt index frames = [] ∧ arguments = lib.serde.toString (.object [])

/-! ## Steady parts -/

namespace GeminiStream

/-- A part of a function call of which something was sent: the new text of the arguments starts with
what was sent. -/
def SteadyPart (lib : Libraries) (stream : GeminiStream) (partIndex : Nat) (value : Json) : Prop :=
  ∀ part call key state args, value.asObject = some part → (part.get "text").bind Json.asStr = none →
    (part.get "functionCall").bind Json.asObject = some call →
    stream.callKey partIndex (trimmedText (call.get "name")) (trimmedText (call.get "id")) = some key →
    stream.calls[key]? = some state → state.kind = .function → state.emittedArguments ≠ "" →
    continuedArgs lib state.args call = .ok args →
    startsWith (lib.serde.toString args) state.emittedArguments = true

def SteadyParts (lib : Libraries) (stream : GeminiStream) (partIndex : Nat) : List Json → Prop
  | [] => True
  | part :: parts =>
    SteadyPart lib stream partIndex part ∧
      ((stream.handlePart lib partIndex part).terminal = false →
        SteadyParts lib (stream.handlePart lib partIndex part) (partIndex + 1) parts)

/-- All parts of the chunk of an event are steady. -/
def SteadyEvent (lib : Libraries) (stream : GeminiStream) (event : List UInt8) : Prop :=
  ∀ value candidate parts, sseDone event = false → parseSseData lib.serde event = some value →
    value.get "error" = none → firstCandidate value = some candidate →
    candidateParts candidate = some parts →
    SteadyParts lib { stream with usage := (value.get "usageMetadata").or stream.usage } 0 parts

/-- All parts of a stream are steady. -/
def Steady (lib : Libraries) (stream : GeminiStream) : List (List UInt8) → Prop
  | [] => True
  | event :: events =>
    stream.terminal = false → SteadyEvent lib stream event ∧ Steady lib (stream.handleEvent lib event) events

/-! ## Calls -/

/-- What a bridge needs of a call to finish it. -/
structure Usable (state : MessagesBridgeState) (call : GeminiStreamCall) : Prop where
  target : ∃ target, state.clientTool call.name = some target ∧ target.kind = call.kind
  args : call.args.isObject = true
  id : call.id ≠ ""

/-- The line of the arguments of a call. -/
def line (stream : GeminiStream) (call : GeminiStreamCall) : Line where
  sent := call.emittedArguments
  received := String.join (deltasAt call.outputIndex stream.output)

/-- What was sent of the arguments of a call: nothing, as long as there are none, or a line that ends in
their text. -/
def Sent (lib : Libraries) (stream : GeminiStream) (call : GeminiStreamCall) : Prop :=
  (call.emittedArguments = "" ∧ deltasAt call.outputIndex stream.output = [] ∧ call.args = .object []) ∨
  (call.emittedArguments ≠ "" ∧ call.emittedArguments = lib.serde.toString call.args ∧
    deltasAt call.outputIndex stream.output ≠ [] ∧
    ((stream.line call).Whole ∨ (stream.line call).Longer))

/-- The calls and the order of the outputs of a stream that goes on. -/
structure Shaped (stream : GeminiStream) : Prop where
  running : stream.terminal = false
  pending : stream.completed = none
  next : stream.nextOutputIndex = stream.order.length
  nodup : stream.order.Nodup
  text : GeminiStreamOutput.text ∈ stream.order ↔ stream.text ≠ ""
  textStarted : stream.textStarted = true ↔ stream.text ≠ ""
  thinking : GeminiStreamOutput.thinking ∈ stream.order ↔ stream.thinking ≠ ""
  placed : ∀ (key : Nat) (call : GeminiStreamCall), stream.calls[key]? = some call →
    stream.order[call.outputIndex]? = some (.call key)
  listed : ∀ key : Nat, GeminiStreamOutput.call key ∈ stream.order →
    ∃ call, stream.calls[key]? = some call
  usable : ∀ (key : Nat) (call : GeminiStreamCall), stream.calls[key]? = some call →
    Usable stream.request.state call
  going : stream.output.filterMap Frame.argumentsDone = []
  fresh : ∀ index, stream.order.length ≤ index → deltasAt index stream.output = []

/-- What holds of a stream that goes on. -/
structure Calling (lib : Libraries) (stream : GeminiStream) : Prop extends Shaped stream where
  sent : ∀ (key : Nat) (call : GeminiStreamCall), stream.calls[key]? = some call →
    call.kind = .function → Sent lib stream call

/-- The client has all arguments that were sent, and no more. -/
def Faithful (stream : GeminiStream) : Prop :=
  ∀ (key : Nat) (call : GeminiStreamCall), stream.calls[key]? = some call → call.kind = .function →
    (stream.line call).Whole

/-- The client has more of some arguments. -/
def Broken (stream : GeminiStream) : Prop :=
  ∃ (key : Nat) (call : GeminiStreamCall), stream.calls[key]? = some call ∧ call.kind = .function ∧
    (stream.line call).Longer

/-- What a part does: it fails, or the stream goes on; steady parts keep it faithful, another one breaks
it for good. -/
def Advances (lib : Libraries) (stream stream' : GeminiStream) (steady : Prop) : Prop :=
  stream'.terminal = true ∧ stream'.completed = none ∨
  Calling lib stream' ∧ (steady → stream.Faithful → stream'.Faithful) ∧
    (¬ steady ∨ stream.Broken → stream'.Broken)

section
variable {lib : Libraries} {stream : GeminiStream} {key : Nat} {call : GeminiStreamCall}

theorem Shaped.outputIndex_lt (h : Shaped stream) (hcall : stream.calls[key]? = some call) :
    call.outputIndex < stream.order.length :=
  (List.getElem?_eq_some_iff.mp (h.placed key call hcall)).1

theorem Shaped.outputIndex_inj (h : Shaped stream) (hcall : stream.calls[key]? = some call)
    {key' : Nat} {call' : GeminiStreamCall} (hcall' : stream.calls[key']? = some call')
    (hindex : call'.outputIndex = call.outputIndex) : key' = key := by
  have hplace := h.placed key' call' hcall'
  rw [hindex, h.placed key call hcall] at hplace
  exact (GeminiStreamOutput.call.inj (Option.some.inj hplace)).symm

/-- A frame that sends no arguments. -/
theorem Shaped.frame (h : Shaped stream) {frame : Frame} (hquiet : frame.Quiet) :
    Shaped (stream.frame frame) :=
  { h with
    going := (hquiet.argumentsDone _).trans h.going
    fresh := fun index hindex => (hquiet.deltasAt _ _).trans (h.fresh index hindex) }

/-- A call is changed, but not its place. -/
theorem Shaped.update (h : Shaped stream) (hcall : stream.calls[key]? = some call)
    {call' : GeminiStreamCall} (hindex : call'.outputIndex = call.outputIndex)
    (husable : Usable stream.request.state call') :
    Shaped { stream with calls := stream.calls.insert key call' } := by
  refine { h with
    placed := fun key' other hother => ?_
    listed := fun key' hkey' => ?_
    usable := fun key' other hother => ?_ }
  · simp only [getElem?_insert_ite] at hother
    split at hother
    case isTrue heq =>
      obtain rfl := heq
      obtain rfl := Option.some.inj hother
      rw [hindex]
      exact h.placed key call hcall
    case isFalse => exact h.placed key' other hother
  · simp only [getElem?_insert_ite]
    split
    case isTrue => exact ⟨call', rfl⟩
    case isFalse => exact h.listed key' hkey'
  · simp only [getElem?_insert_ite] at hother
    split at hother
    case isTrue => exact Option.some.inj hother ▸ husable
    case isFalse => exact h.usable key' other hother

/-- A delta of a call is sent. -/
theorem Shaped.delta (h : Shaped stream) (hcall : stream.calls[key]? = some call)
    (responseId : Option String) (itemId delta : String) :
    Shaped (stream.frame (.functionCallArgumentsDelta responseId itemId call.outputIndex delta)) := by
  refine { h with going := ?_, fresh := fun index hindex => ?_ }
  · rw [GeminiStream.frame, List.filterMap_append, h.going]
    rfl
  · have hlt := h.outputIndex_lt hcall
    have hle : stream.order.length ≤ index := hindex
    rw [GeminiStream.frame, deltasAt_concat_delta, h.fresh index hindex, if_neg (by omega)]
    rfl

end

/-! ## Sending arguments -/

section
variable {lib : Libraries} {stream : GeminiStream} {key : Nat} {call : GeminiStreamCall}

/-- The line of a call before its new arguments are sent: nothing was sent of it, or something. -/
def Sending (stream : GeminiStream) (call : GeminiStreamCall) : Prop :=
  (call.emittedArguments = "" ∧ deltasAt call.outputIndex stream.output = []) ∨
  (call.emittedArguments ≠ "" ∧ deltasAt call.outputIndex stream.output ≠ [] ∧
    ((stream.line call).Whole ∨ (stream.line call).Longer))

theorem Sent.sending (h : Sent lib stream call) : Sending stream call := by
  rcases h with ⟨hempty, hdeltas, -⟩ | ⟨hne, -, hdeltas, hline⟩
  · exact .inl ⟨hempty, hdeltas⟩
  · exact .inr ⟨hne, hdeltas, hline⟩

theorem Sending.whole_or (h : Sending stream call) :
    (stream.line call).Whole ∨ (stream.line call).Longer := by
  rcases h with ⟨hempty, hdeltas⟩ | ⟨-, -, hline⟩
  · refine .inl ?_
    rw [Line.Whole, line, hempty, hdeltas]
    rfl
  · exact hline

/-- What the rest of a stream sees of a call whose arguments were sent: its line has a new version, and
nothing else changed. -/
structure Resent (lib : Libraries) (stream stream' : GeminiStream) (key : Nat)
    (call : GeminiStreamCall) : Prop where
  shaped : Shaped stream'
  resent : ∃ call', stream'.calls[key]? = some call' ∧ call'.kind = call.kind ∧ Sent lib stream' call' ∧
    (stream'.line call' = stream.line call ∧ (stream.line call).sent = "" ∨
      stream'.line call' = (stream.line call).send (lib.serde.toString call.args))
  others : ∀ (key' : Nat) (other : GeminiStreamCall), key' ≠ key →
    (stream'.calls[key']? = some other ↔ stream.calls[key']? = some other)
  lines : ∀ index, index ≠ call.outputIndex →
    deltasAt index stream'.output = deltasAt index stream.output

theorem isEmpty_of_args {args : Json} (h : args.asObject.any List.isEmpty = true) :
    args = .object [] := by
  cases args with
  | object fields =>
    obtain rfl := List.isEmpty_iff.mp h
    rfl
  | _ => exact nomatch h

theorem emitCallArgumentsDelta_resent (h : Shaped stream) (hcall : stream.calls[key]? = some call)
    (hprints : lib.serde.toString call.args ≠ "") (hsending : Sending stream call) :
    Resent lib stream (stream.emitCallArgumentsDelta lib key) key call := by
  have hline := @Line.send_sent (stream.line call) _ hprints
  unfold emitCallArgumentsDelta
  simp only [hcall]
  split
  case isTrue hnothing =>
    -- There are no arguments yet.
    obtain ⟨hempty, hargs⟩ := hnothing
    have hdeltas : deltasAt call.outputIndex stream.output = [] := by
      rcases hsending with ⟨-, hdeltas⟩ | ⟨hne, -⟩
      · exact hdeltas
      · exact absurd hempty hne
    exact {
      shaped := h
      resent := ⟨call, hcall, rfl, .inl ⟨hempty, hdeltas, isEmpty_of_args hargs⟩, .inl ⟨rfl, hempty⟩⟩
      others := fun _ _ _ => Iff.rfl
      lines := fun _ _ => rfl }
  case isFalse hsome =>
    split
    case isTrue hnothing =>
      -- The text of the arguments is the one that was sent.
      have hsame : (stream.line call).send (lib.serde.toString call.args) = stream.line call :=
        if_pos hnothing
      rw [hsame] at hline
      have hemitted : call.emittedArguments = lib.serde.toString call.args := hline
      have hne : call.emittedArguments ≠ "" := by
        rw [hemitted]
        exact hprints
      obtain ⟨hempty, -⟩ | ⟨-, hdeltas, hwhole⟩ := hsending
      · exact absurd hempty hne
      · exact {
          shaped := h
          resent := ⟨call, hcall, rfl, .inr ⟨hne, hemitted, hdeltas, hwhole⟩, .inr hsame.symm⟩
          others := fun _ _ _ => Iff.rfl
          lines := fun _ _ => rfl }
    case isFalse hdelta =>
      let sent : GeminiStreamCall := { call with emittedArguments := lib.serde.toString call.args }
      have husable : Usable stream.request.state sent := { h.usable key call hcall with }
      have hupdated := @Shaped.update stream key call h hcall sent rfl husable
      have hsent : (stream.calls.insert key sent)[key]? = some sent := by
        rw [getElem?_insert_ite, if_pos rfl]
      have hdeltas : deltasAt call.outputIndex (stream.output ++ [.functionCallArgumentsDelta
          (some stream.request.responseId) call.itemId call.outputIndex
          (incrementalDelta call.emittedArguments (lib.serde.toString call.args))]) =
          deltasAt call.outputIndex stream.output ++
            [incrementalDelta call.emittedArguments (lib.serde.toString call.args)] := by
        rw [deltasAt_concat_delta, if_pos rfl]
      have hnew : (stream.line call).send (lib.serde.toString call.args) =
          ⟨lib.serde.toString call.args, String.join (deltasAt call.outputIndex stream.output) ++
            incrementalDelta call.emittedArguments (lib.serde.toString call.args)⟩ := if_neg hdelta
      have hlineSent : (GeminiStream.frame { stream with calls := stream.calls.insert key sent }
          (.functionCallArgumentsDelta (some stream.request.responseId) call.itemId call.outputIndex
            (incrementalDelta call.emittedArguments (lib.serde.toString call.args)))).line sent =
          (stream.line call).send (lib.serde.toString call.args) := by
        rw [hnew]
        refine congrArg (Line.mk (lib.serde.toString call.args)) ?_
        exact (congrArg String.join hdeltas).trans (by simp)
      refine {
        shaped := hupdated.delta hsent _ _ _
        resent := ⟨sent, hsent, rfl, .inr ⟨hprints, rfl, ?_, ?_⟩, .inr hlineSent⟩
        others := fun key' other hne => ?_
        lines := fun index hne => ?_ }
      · rw [GeminiStream.frame]
        dsimp only
        rw [hdeltas]
        exact List.append_ne_nil_of_right_ne_nil _ (List.cons_ne_nil _ _)
      · rw [hlineSent]
        exact Line.send_whole_or hsending.whole_or hprints
      · rw [GeminiStream.frame]
        dsimp only
        rw [getElem?_insert_ite, if_neg (Ne.symm hne)]
      · rw [GeminiStream.frame]
        dsimp only
        rw [deltasAt_concat_delta, if_neg (Ne.symm hne), List.append_nil]

end

/-! ## Parts of a call -/

section
variable {lib : Libraries} {stream stream' : GeminiStream} {key : Nat}

/-- The calls but one, and their lines, are what they were. -/
structure Others (stream stream' : GeminiStream) (key : Nat) : Prop where
  calls : ∀ (key' : Nat) (other : GeminiStreamCall), key' ≠ key →
    (stream'.calls[key']? = some other ↔ stream.calls[key']? = some other)
  deltas : ∀ (key' : Nat) (other : GeminiStreamCall), key' ≠ key →
    stream.calls[key']? = some other →
    deltasAt other.outputIndex stream'.output = deltasAt other.outputIndex stream.output

variable {call : GeminiStreamCall}

theorem line_congr (h : deltasAt call.outputIndex stream'.output = deltasAt call.outputIndex stream.output) :
    stream'.line call = stream.line call := by
  rw [line, line, h]

theorem Sent.congr (h : Sent lib stream call)
    (hdeltas : deltasAt call.outputIndex stream'.output = deltasAt call.outputIndex stream.output) :
    Sent lib stream' call := by
  rw [Sent, line_congr hdeltas, hdeltas]
  exact h

theorem Calling.step (h : Calling lib stream) (hothers : Others stream stream' key)
    (hshaped : Shaped stream') (hkey : ∀ call, stream'.calls[key]? = some call →
      call.kind = .function → Sent lib stream' call) : Calling lib stream' := by
  refine { hshaped with sent := fun key' call hcall hkind => ?_ }
  by_cases heq : key' = key
  · exact hkey call (heq ▸ hcall) hkind
  · have hbefore := (hothers.calls key' call heq).mp hcall
    exact (h.sent key' call hbefore hkind).congr (hothers.deltas key' call heq hbefore)

theorem Faithful.step (h : stream.Faithful) (hothers : Others stream stream' key)
    (hkey : ∀ call, stream'.calls[key]? = some call → call.kind = .function →
      (stream'.line call).Whole) : stream'.Faithful := by
  intro key' call hcall hkind
  by_cases heq : key' = key
  · exact hkey call (heq ▸ hcall) hkind
  · have hbefore := (hothers.calls key' call heq).mp hcall
    rw [line_congr (hothers.deltas key' call heq hbefore)]
    exact h key' call hbefore hkind

theorem Broken.step (h : stream.Broken) (hothers : Others stream stream' key)
    (hkey : ∀ call, stream.calls[key]? = some call → call.kind = .function →
      (stream.line call).Longer → stream'.Broken) : stream'.Broken := by
  obtain ⟨key', call, hcall, hkind, hlonger⟩ := h
  by_cases heq : key' = key
  · exact hkey call (heq ▸ hcall) hkind hlonger
  · refine ⟨key', call, (hothers.calls key' call heq).mpr hcall, hkind, ?_⟩
    rw [line_congr (hothers.deltas key' call heq hcall)]
    exact hlonger

/-- The arguments of a call are sent. -/
theorem Resent.elsewhere {middle : GeminiStream}
    (hmiddle : Shaped middle) (hcall : middle.calls[key]? = some call)
    (h : Resent lib middle stream' key call) (hothers : Others stream middle key) :
    Others stream stream' key where
  calls key' other hne := (h.others key' other hne).trans (hothers.calls key' other hne)
  deltas key' other hne hother := by
    have hthere := (hothers.calls key' other hne).mpr hother
    have hindex : other.outputIndex ≠ call.outputIndex :=
      fun heq => hne (hmiddle.outputIndex_inj hcall hthere heq)
    rw [h.lines _ hindex, hothers.deltas key' other hne hother]

theorem Resent.sent (h : Resent lib stream stream' key call) :
    ∀ call', stream'.calls[key]? = some call' → call'.kind = .function → Sent lib stream' call' := by
  obtain ⟨resent, hresent, -, hsent, -⟩ := h.resent
  intro call' hcall' _
  rw [hresent] at hcall'
  exact Option.some.inj hcall' ▸ hsent

end

section
variable {lib : Libraries} {stream : GeminiStream} {key : Nat} {state : GeminiStreamCall}
  {part call : Json.Fields}

theorem failInvalid_advances (h : Calling lib stream) (steady : Prop) :
    Advances lib stream stream.failInvalid steady := by
  refine .inl ?_
  rw [failInvalid, fail, if_neg (by rw [h.running]; exact Bool.false_ne_true)]
  exact ⟨rfl, h.pending⟩

theorem isObject_continuedArgs {args args' : Json} (h : args.isObject = true)
    (hargs : continuedArgs lib args call = .ok args') : args'.isObject = true := by
  have patched : ∀ {base : Json}, base.isObject = true →
      ((call.get "partialArgs").elim (.ok base) (applyPartialArgs lib base) : AdapterResult Json) = .ok args' →
      args'.isObject = true := by
    intro base hbase hpatched
    cases hpatches : call.get "partialArgs" with
    | none =>
      rw [hpatches] at hpatched
      exact Except.ok.inj hpatched ▸ hbase
    | some partialArgs =>
      rw [hpatches] at hpatched
      exact isObject_applyPartialArgs hbase hpatched
  cases hfull : call.get "args" with
  | none =>
    refine patched h (Eq.trans ?_ hargs)
    simp only [continuedArgs, hfull, pure_bind]
    cases call.get "partialArgs" <;> rfl
  | some fullArgs =>
    by_cases hobject : fullArgs.isObject = true
    · refine patched hobject (Eq.trans ?_ hargs)
      simp only [continuedArgs, hfull, hobject, if_true, pure_bind]
      cases call.get "partialArgs" <;> rfl
    · simp only [continuedArgs, hfull, hobject] at hargs
      cases hargs

theorem continueCall_advances (hprints : ∀ fields, lib.serde.toString (.object fields) ≠ "")
    (h : Calling lib stream) (hstate : stream.calls[key]? = some state) :
    Advances lib stream (stream.continueCall lib key state part call)
      (∀ args, state.kind = .function → state.emittedArguments ≠ "" →
        continuedArgs lib state.args call = .ok args →
        startsWith (lib.serde.toString args) state.emittedArguments = true) := by
  cases hargs : continuedArgs lib state.args call with
  | error _ =>
    simp only [continueCall, hargs]
    exact failInvalid_advances h _
  | ok args =>
    have hobject := isObject_continuedArgs (h.usable key state hstate).args hargs
    let changed : GeminiStreamCall := { state with
      args, thoughtSignature := (thoughtSignature part).or state.thoughtSignature }
    let middle : GeminiStream := { stream with calls := stream.calls.insert key changed }
    have husable : Usable stream.request.state changed :=
      { h.usable key state hstate with args := hobject }
    have hmiddle : Shaped middle := h.toShaped.update hstate rfl husable
    have hchanged : middle.calls[key]? = some changed := by
      simp only [middle, getElem?_insert_ite, if_true]
    have hothers : Others stream middle key := by
      refine ⟨fun key' other hne => ?_, fun _ _ _ _ => rfl⟩
      simp only [middle, getElem?_insert_ite, if_neg (Ne.symm hne)]
    refine .inr ?_
    obtain hkind | hkind : state.kind = .custom ∨ state.kind = .function := by
      cases state.kind <;> simp
    · -- A custom tool has no line.
      have hafter : stream.continueCall lib key state part call = middle := by
        simp only [continueCall, hargs, hkind, middle, changed]
      rw [hafter]
      refine ⟨h.step hothers hmiddle fun other hother hfunction => ?_, fun _ hfaithful => ?_, ?_⟩
      · obtain rfl := Option.some.inj (hchanged.symm.trans hother)
        exact nomatch hkind.symm.trans hfunction
      · refine hfaithful.step hothers fun other hother hfunction => ?_
        obtain rfl := Option.some.inj (hchanged.symm.trans hother)
        exact nomatch hkind.symm.trans hfunction
      · rintro (hsteady | hbroken)
        · exact absurd (fun _ hfunction => nomatch hkind.symm.trans hfunction) hsteady
        · refine hbroken.step hothers fun other hother hfunction _ => ?_
          obtain rfl := Option.some.inj (hstate.symm.trans hother)
          exact nomatch hkind.symm.trans hfunction
    · have hresult : stream.continueCall lib key state part call =
          middle.emitCallArgumentsDelta lib key := by
        simp only [continueCall, hargs, hkind, middle, changed]
      rw [hresult]
      have hne : lib.serde.toString changed.args ≠ "" := by
        show lib.serde.toString args ≠ ""
        cases args with
        | object fields => exact hprints fields
        | _ => exact nomatch hobject
      have hsending : Sending middle changed := (h.sent key state hstate hkind).sending
      have hresent := emitCallArgumentsDelta_resent hmiddle hchanged hne hsending
      have hcalls := hresent.elsewhere hmiddle hchanged hothers
      have hafter := h.step hcalls hresent.shaped hresent.sent
      obtain ⟨resent, hthere, hkept, -, hline⟩ := hresent.resent
      refine ⟨hafter, fun hsteady hfaithful => ?_, ?_⟩
      · refine hfaithful.step hcalls fun other hother _ => ?_
        obtain rfl := Option.some.inj (hthere.symm.trans hother)
        have hwhole : (middle.line changed).Whole := hfaithful key state hstate hkind
        rcases hline with ⟨hline, -⟩ | hline
        · rw [hline]
          exact hwhole
        · rw [hline]
          refine hwhole.send hne ?_
          by_cases hempty : state.emittedArguments = ""
          · show startsWith (lib.serde.toString args) state.emittedArguments = true
            rw [hempty]
            exact startsWith_empty _
          · exact hsteady args hkind hempty rfl
      · rintro (hsteady | hbroken)
        · push Not at hsteady
          obtain ⟨args', -, hsome, hargs', hlead⟩ := hsteady
          obtain rfl := Except.ok.inj hargs'
          refine ⟨key, resent, hthere, hkept.trans hkind, ?_⟩
          rcases hline with ⟨-, hempty⟩ | hline
          · exact absurd hempty hsome
          · rw [hline]
            exact Line.send_longer hsending.whole_or hsome hne hlead
        · refine hbroken.step hcalls fun other hother _ hlonger => ?_
          obtain rfl := Option.some.inj (hstate.symm.trans hother)
          refine ⟨key, resent, hthere, hkept.trans hkind, ?_⟩
          rcases hline with ⟨hline, -⟩ | hline
          · rw [hline]
            exact hlonger
          · rw [hline]
            exact Line.Longer.send hlonger hne

/-- The frames that a stream starts with send no arguments. -/
theorem ensureStarted_keeps (stream : GeminiStream) :
    ∃ output started, stream.ensureStarted = { stream with output, started } ∧
      (∀ index, deltasAt index output = deltasAt index stream.output) ∧
      output.filterMap Frame.argumentsDone = stream.output.filterMap Frame.argumentsDone := by
  unfold ensureStarted
  split
  case isTrue => exact ⟨stream.output, stream.started, rfl, fun _ => rfl, rfl⟩
  case isFalse =>
    have hquiet : (Frame.created stream.request.responseId stream.request.model).Quiet := ⟨rfl, rfl⟩
    exact ⟨_, true, rfl, fun index => hquiet.deltasAt index _, hquiet.argumentsDone _⟩

/-- A new call has the next place. -/
theorem Shaped.start (h : Shaped stream) (hnew : stream.calls[key]? = none) {fresh : GeminiStreamCall}
    (hindex : fresh.outputIndex = stream.order.length) (husable : Usable stream.request.state fresh)
    {output : List Frame} (hdeltas : ∀ index, deltasAt index output = deltasAt index stream.output)
    (hdone : output.filterMap Frame.argumentsDone = stream.output.filterMap Frame.argumentsDone)
    (started : Bool) :
    Shaped { stream with
      output, started
      nextOutputIndex := stream.nextOutputIndex + 1
      calls := stream.calls.insert key fresh
      order := stream.order ++ [GeminiStreamOutput.call key] } := by
  have hfresh : GeminiStreamOutput.call key ∉ stream.order := by
    intro hmem
    obtain ⟨call, hcall⟩ := h.listed key hmem
    exact nomatch hnew.symm.trans hcall
  refine { h with
    next := ?_
    nodup := ?_
    text := by simpa using h.text
    thinking := by simpa using h.thinking
    placed := fun key' call hcall => ?_
    listed := fun key' hkey' => ?_
    usable := fun key' call hcall => ?_
    going := hdone.trans h.going
    fresh := fun index hle => ?_ }
  · simp [h.next]
  · refine List.nodup_append.mpr ⟨h.nodup, List.nodup_singleton _, ?_⟩
    rintro output houtput _ hsingle rfl
    exact hfresh (List.mem_singleton.mp hsingle ▸ houtput)
  · simp only [getElem?_insert_ite] at hcall
    split at hcall
    case isTrue heq =>
      obtain rfl := heq
      obtain rfl := Option.some.inj hcall
      rw [hindex, List.getElem?_concat_length]
    case isFalse =>
      rw [List.getElem?_append_left (h.outputIndex_lt hcall)]
      exact h.placed key' call hcall
  · simp only [getElem?_insert_ite]
    split
    case isTrue => exact ⟨fresh, rfl⟩
    case isFalse hne =>
      rcases List.mem_append.mp hkey' with hold | hlast
      · exact h.listed key' hold
      · exact absurd (GeminiStreamOutput.call.inj (List.mem_singleton.mp hlast)).symm hne
  · simp only [getElem?_insert_ite] at hcall
    split at hcall
    case isTrue => exact Option.some.inj hcall ▸ husable
    case isFalse => exact h.usable key' call hcall
  · simp only [List.length_append, List.length_singleton] at hle
    exact (hdeltas index).trans (h.fresh index (by omega))

theorem geminiCallId_ne (responseId : String) (call : Json.Fields) (place : Nat) :
    geminiCallId responseId call place ≠ "" := by
  unfold geminiCallId
  cases hid : ((call.get "id").bind Json.asStr).filter fun id => id ≠ "" with
  | none => simp
  | some id =>
    rw [Option.filter_eq_some_iff] at hid
    simpa using hid.2

theorem isObject_functionCallArgs {args : Json} (hargs : functionCallArgs lib call = .ok args) :
    args.isObject = true := by
  unfold functionCallArgs at hargs
  dsimp only at hargs
  split at hargs
  case isTrue => exact nomatch hargs
  case isFalse hobject =>
    rw [Bool.not_eq_true, Bool.not_eq_false'] at hobject
    split at hargs
    case h_1 => exact Except.ok.inj hargs ▸ hobject
    case h_2 => exact isObject_applyPartialArgs hobject hargs

theorem startCall_advances (hprints : ∀ fields, lib.serde.toString (.object fields) ≠ "")
    (h : Calling lib stream) (hnew : stream.calls[key]? = none) {name : String}
    {target : ClientToolTarget} (htarget : stream.request.state.clientTool name = some target)
    {steady : Prop} (hsteady : steady) :
    Advances lib stream (stream.startCall lib key name target part call) steady := by
  cases hargs : functionCallArgs lib call with
  | error _ =>
    simp only [startCall, hargs]
    exact failInvalid_advances h _
  | ok args =>
    obtain ⟨output, started, hstarted, hdeltas, hdone⟩ := ensureStarted_keeps stream
    have hobject := isObject_functionCallArgs hargs
    let fresh : GeminiStreamCall := {
      id := geminiCallId stream.request.responseId call key
      itemId := (toolCallItem target (geminiCallId stream.request.responseId call key) .inProgress "").id
      name, kind := target.kind, args, outputIndex := stream.nextOutputIndex
      thoughtSignature := thoughtSignature part }
    let added : Frame := .outputItemAdded stream.nextOutputIndex
      (.toolCall (toolCallItem target (geminiCallId stream.request.responseId call key) .inProgress ""))
    let middle : GeminiStream := { stream with
      output := output ++ [added], started
      nextOutputIndex := stream.nextOutputIndex + 1
      calls := stream.calls.insert key fresh
      order := stream.order ++ [GeminiStreamOutput.call key] }
    have husable : Usable stream.request.state fresh := ⟨⟨target, htarget, rfl⟩, hobject, geminiCallId_ne _ _ _⟩
    have hquiet : added.Quiet := ⟨rfl, rfl⟩
    have hframes : ∀ index, deltasAt index (output ++ [added]) = deltasAt index stream.output :=
      fun index => (hquiet.deltasAt index output).trans (hdeltas index)
    have hmiddle : Shaped middle := h.toShaped.start hnew h.next husable hframes
      ((hquiet.argumentsDone output).trans hdone) started
    have hfresh : middle.calls[key]? = some fresh := by
      simp only [middle, getElem?_insert_ite, if_true]
    have hothers : Others stream middle key := by
      refine ⟨fun key' other hne => ?_, fun key' other _ _ => hframes other.outputIndex⟩
      simp only [middle, getElem?_insert_ite, if_neg (Ne.symm hne)]
    refine .inr ?_
    obtain hkind | hkind : target.kind = .custom ∨ target.kind = .function := by
      cases target.kind <;> simp
    · have hresult : stream.startCall lib key name target part call = middle := by
        simp only [startCall, hargs, hkind, hstarted, middle, fresh, added, GeminiStream.frame]
      rw [hresult]
      refine ⟨h.step hothers hmiddle fun other hother hfunction => ?_, fun _ hfaithful => ?_, ?_⟩
      · obtain rfl := Option.some.inj (hfresh.symm.trans hother)
        cases hkind.symm.trans hfunction
      · refine hfaithful.step hothers fun other hother hfunction => ?_
        obtain rfl := Option.some.inj (hfresh.symm.trans hother)
        cases hkind.symm.trans hfunction
      · rintro (hnot | hbroken)
        · exact absurd hsteady hnot
        · exact hbroken.step hothers fun other hother => by cases hnew.symm.trans hother
    · have hresult : stream.startCall lib key name target part call =
          middle.emitCallArgumentsDelta lib key := by
        simp only [startCall, hargs, hkind, hstarted, middle, fresh, added, GeminiStream.frame]
      rw [hresult]
      have hne : lib.serde.toString fresh.args ≠ "" := by
        show lib.serde.toString args ≠ ""
        cases args with
        | object fields => exact hprints fields
        | _ => cases hobject
      have hnothing : deltasAt fresh.outputIndex middle.output = [] :=
        (hframes _).trans (h.fresh _ (le_of_eq h.next.symm))
      have hresent := emitCallArgumentsDelta_resent hmiddle hfresh hne (.inl ⟨rfl, hnothing⟩)
      have hcalls := hresent.elsewhere hmiddle hfresh hothers
      obtain ⟨resent, hthere, -, -, hline⟩ := hresent.resent
      refine ⟨h.step hcalls hresent.shaped hresent.sent, fun _ hfaithful => ?_, ?_⟩
      · refine hfaithful.step hcalls fun other hother _ => ?_
        obtain rfl := Option.some.inj (hthere.symm.trans hother)
        have hwhole : (middle.line fresh).Whole := congrArg String.join hnothing
        rcases hline with ⟨hline, -⟩ | hline
        · rw [hline]
          exact hwhole
        · rw [hline]
          exact hwhole.send hne (startsWith_empty _)
      · rintro (hnot | hbroken)
        · exact absurd hsteady hnot
        · exact hbroken.step hcalls fun other hother => by cases hnew.symm.trans hother

theorem Advances.note {stream' : GeminiStream} {steady : Prop}
    (h : Advances lib stream stream' steady) (key : Nat) (call : Json.Fields) :
    Advances lib stream (if stream'.terminal then stream' else stream'.noteContinuation key call)
      steady := by
  rcases h with hfailed | ⟨hcalling, hfaithful, hbroken⟩
  · rw [if_pos hfailed.1]
    exact .inl hfailed
  · rw [if_neg (by rw [hcalling.running]; exact Bool.false_ne_true)]
    obtain ⟨activeCall, hnote⟩ : ∃ activeCall,
        stream'.noteContinuation key call = { stream' with activeCall } := by
      unfold noteContinuation
      split
      · exact ⟨_, rfl⟩
      · split
        · exact ⟨_, rfl⟩
        · exact ⟨stream'.activeCall, rfl⟩
    rw [hnote]
    exact .inr ⟨{ hcalling with }, hfaithful, hbroken⟩

theorem Advances.congr {stream' : GeminiStream} {steady steady' : Prop}
    (h : Advances lib stream stream' steady) (hiff : steady ↔ steady') :
    Advances lib stream stream' steady' :=
  propext hiff ▸ h

theorem handleFunctionCall_advances (hprints : ∀ fields, lib.serde.toString (.object fields) ≠ "")
    (h : Calling lib stream) (partIndex : Nat) :
    Advances lib stream (stream.handleFunctionCall lib partIndex part call)
      (∀ key state args,
        stream.callKey partIndex (trimmedText (call.get "name")) (trimmedText (call.get "id")) =
          some key →
        stream.calls[key]? = some state → state.kind = .function → state.emittedArguments ≠ "" →
        continuedArgs lib state.args call = .ok args →
        startsWith (lib.serde.toString args) state.emittedArguments = true) := by
  unfold handleFunctionCall
  dsimp only
  cases hkey : stream.callKey partIndex (trimmedText (call.get "name")) (trimmedText (call.get "id")) with
  | none => exact failInvalid_advances h _
  | some key =>
    dsimp only
    cases (trimmedText (call.get "name")).or (stream.calls[key]?.map GeminiStreamCall.name) with
    | none => exact failInvalid_advances h _
    | some name =>
      dsimp only
      cases htarget : stream.request.state.clientTool name with
      | none => exact failInvalid_advances h _
      | some target =>
        dsimp only
        cases hcall : stream.calls[key]? with
        | none =>
          refine Advances.note (startCall_advances hprints h hcall htarget ?_) key call
          rintro key' state args ⟨⟩ hstate
          exact nomatch hcall.symm.trans hstate
        | some state =>
          refine (Advances.note (continueCall_advances hprints h hcall) key call).congr ⟨?_, ?_⟩
          · rintro hsteady key' state' args ⟨⟩ hstate
            obtain rfl := Option.some.inj (hcall.symm.trans hstate)
            exact hsteady args
          · exact fun hsteady args => hsteady key state args rfl hcall

end

/-! ## Other parts -/

section
variable {lib : Libraries} {stream stream' : GeminiStream}

/-- The calls and their lines are what they were. -/
theorem advances_of_same (h : Calling lib stream) (hshaped : Shaped stream')
    (hcalls : stream'.calls = stream.calls)
    (hdeltas : ∀ index, deltasAt index stream'.output = deltasAt index stream.output) {steady : Prop}
    (hsteady : steady) : Advances lib stream stream' steady := by
  refine .inr ⟨{ hshaped with sent := fun key call hcall hkind => ?_ },
    fun _ hfaithful key call hcall hkind => ?_, ?_⟩
  · exact (h.sent key call (hcalls ▸ hcall) hkind).congr (hdeltas _)
  · rw [line_congr (hdeltas _)]
    exact hfaithful key call (hcalls ▸ hcall) hkind
  · rintro (hnot | ⟨key, call, hcall, hkind, hlonger⟩)
    · exact absurd hsteady hnot
    · refine ⟨key, call, hcalls ▸ hcall, hkind, ?_⟩
      rw [line_congr (hdeltas _)]
      exact hlonger

/-- The text or the thoughts get the next place. -/
theorem Shaped.append (h : Shaped stream) {entry : GeminiStreamOutput} (hfresh : entry ∉ stream.order)
    (hentry : ∀ key, entry ≠ .call key) {output : List Frame}
    (hdeltas : ∀ index, deltasAt index output = deltasAt index stream.output)
    (hdone : output.filterMap Frame.argumentsDone = stream.output.filterMap Frame.argumentsDone) :
    (stream.order ++ [entry]).Nodup ∧
    (∀ (key : Nat) (call : GeminiStreamCall), stream.calls[key]? = some call →
      (stream.order ++ [entry])[call.outputIndex]? = some (.call key)) ∧
    (∀ key : Nat, GeminiStreamOutput.call key ∈ stream.order ++ [entry] →
      ∃ call, stream.calls[key]? = some call) ∧
    output.filterMap Frame.argumentsDone = [] ∧
    ∀ index, (stream.order ++ [entry]).length ≤ index → deltasAt index output = [] := by
  refine ⟨?_, fun key call hcall => ?_, fun key hkey => ?_, hdone.trans h.going, fun index hle => ?_⟩
  · refine List.nodup_append.mpr ⟨h.nodup, List.nodup_singleton _, ?_⟩
    rintro output houtput _ hsingle rfl
    exact hfresh (List.mem_singleton.mp hsingle ▸ houtput)
  · rw [List.getElem?_append_left (h.outputIndex_lt hcall)]
    exact h.placed key call hcall
  · rcases List.mem_append.mp hkey with hold | hlast
    · exact h.listed key hold
    · exact absurd (List.mem_singleton.mp hlast).symm (hentry key)
  · rw [List.length_append, List.length_singleton] at hle
    exact (hdeltas index).trans (h.fresh index (by omega))

theorem ensureTextOutput_of_started (h : stream.textStarted = true) : stream.ensureTextOutput = stream :=
  if_pos h

theorem handleText_advances (h : Calling lib stream) (value : String) {steady : Prop}
    (hsteady : steady) : Advances lib stream (stream.handleText value) steady := by
  obtain ⟨output, started, hstarted, hdeltas, hdone⟩ := ensureStarted_keeps stream
  have hshaped : Shaped { stream with output, started } := { h.toShaped with
    going := hdone.trans h.going
    fresh := fun index hle => (hdeltas index).trans (h.fresh index hle) }
  unfold handleText
  rw [hstarted]
  dsimp only
  split
  case isTrue => exact advances_of_same h hshaped rfl hdeltas hsteady
  case isFalse hdelta =>
    generalize incrementalDelta stream.text value = delta at hdelta
    by_cases htext : stream.text = ""
    · -- The text gets its place with its first delta.
      have hclosed : stream.textStarted = false := by
        rw [← Bool.not_eq_true, h.textStarted]
        exact not_not_intro htext
      have hmissing : GeminiStreamOutput.text ∉ stream.order := fun hmem => h.text.mp hmem htext
      rw [if_pos htext, ensureTextOutput]
      dsimp only
      rw [if_neg (by rw [hclosed]; exact Bool.false_ne_true)]
      simp only [GeminiStream.frame, textItemId]
      refine advances_of_same h ?shaped ?calls (fun index => ?deltas) hsteady
      case shaped =>
        obtain ⟨hnodup, hplaced, hlisted, hgoing, hfresh⟩ := h.toShaped.append hmissing (by rintro _ ⟨⟩) hdeltas hdone
        refine { h.toShaped with
          next := by simp [h.next]
          nodup := hnodup
          text := by simp [hdelta]
          textStarted := by simp [hdelta]
          thinking := by simpa using h.thinking
          placed := hplaced
          listed := hlisted
          going := ?_
          fresh := fun index hle => ?_ }
        · rw [Frame.Quiet.argumentsDone ⟨rfl, rfl⟩, Frame.Quiet.argumentsDone ⟨rfl, rfl⟩,
            Frame.Quiet.argumentsDone ⟨rfl, rfl⟩]
          exact hgoing
        · rw [Frame.Quiet.deltasAt ⟨rfl, rfl⟩, Frame.Quiet.deltasAt ⟨rfl, rfl⟩,
            Frame.Quiet.deltasAt ⟨rfl, rfl⟩]
          exact hfresh index hle
      case calls => rfl
      case deltas =>
        rw [Frame.Quiet.deltasAt ⟨rfl, rfl⟩, Frame.Quiet.deltasAt ⟨rfl, rfl⟩,
          Frame.Quiet.deltasAt ⟨rfl, rfl⟩]
        exact hdeltas index
    · have hkept := @ensureTextOutput_of_started { stream with output, started }
        (h.textStarted.mpr htext)
      rw [if_neg htext, hkept]
      have hne : stream.text ++ delta ≠ "" := fun hempty => htext (String.append_eq_empty_iff.mp hempty).1
      refine advances_of_same h ?shaped ?calls (fun index => ?deltas) hsteady
      case shaped => exact { @Shaped.frame _ hshaped (.outputTextDelta stream.request.responseId
            (textItemId { stream with output, started }) stream.textOutputIndex 0 delta) ⟨rfl, rfl⟩ with
          text := iff_of_true (h.text.mpr htext) hne
          textStarted := iff_of_true (h.textStarted.mpr htext) hne }
      case calls => rfl
      case deltas => exact (Frame.Quiet.deltasAt ⟨rfl, rfl⟩ _ _).trans (hdeltas index)

theorem handleThought_advances (h : Calling lib stream) (value : String) {steady : Prop}
    (hsteady : steady) : Advances lib stream (stream.handleThought value) steady := by
  obtain ⟨output, started, hstarted, hdeltas, hdone⟩ := ensureStarted_keeps stream
  have hshaped : Shaped { stream with output, started } := { h.toShaped with
    going := hdone.trans h.going
    fresh := fun index hle => (hdeltas index).trans (h.fresh index hle) }
  unfold handleThought
  rw [hstarted]
  dsimp only
  split
  case isTrue => exact advances_of_same h hshaped rfl hdeltas hsteady
  case isFalse hdelta =>
    generalize incrementalDelta stream.thinking value = delta at hdelta
    by_cases hthinking : stream.thinking = ""
    · -- The thoughts get their place with their first delta.
      have hmissing : GeminiStreamOutput.thinking ∉ stream.order :=
        fun hmem => h.thinking.mp hmem hthinking
      rw [if_pos hthinking]
      simp only [GeminiStream.frame]
      refine advances_of_same h ?shaped ?calls (fun index => ?deltas) hsteady
      case shaped =>
        obtain ⟨hnodup, hplaced, hlisted, hgoing, hfresh⟩ := h.toShaped.append hmissing (by rintro _ ⟨⟩) hdeltas hdone
        refine { h.toShaped with
          next := by simp [h.next]
          nodup := hnodup
          text := by simpa using h.text
          thinking := by simp [hdelta]
          placed := hplaced
          listed := hlisted
          going := ?_
          fresh := fun index hle => ?_ }
        · rw [Frame.Quiet.argumentsDone ⟨rfl, rfl⟩, Frame.Quiet.argumentsDone ⟨rfl, rfl⟩]
          exact hgoing
        · rw [Frame.Quiet.deltasAt ⟨rfl, rfl⟩, Frame.Quiet.deltasAt ⟨rfl, rfl⟩]
          exact hfresh index hle
      case calls => rfl
      case deltas =>
        rw [Frame.Quiet.deltasAt ⟨rfl, rfl⟩, Frame.Quiet.deltasAt ⟨rfl, rfl⟩]
        exact hdeltas index
    · rw [if_neg hthinking]
      have hne : stream.thinking ++ delta ≠ "" :=
        fun hempty => hthinking (String.append_eq_empty_iff.mp hempty).1
      refine advances_of_same h ?shaped ?calls (fun index => ?deltas) hsteady
      case shaped => exact { @Shaped.frame _ hshaped (.reasoningSummaryTextDelta
            stream.request.responseId stream.thinkingOutputIndex delta) ⟨rfl, rfl⟩ with
          thinking := iff_of_true (h.thinking.mpr hthinking) hne }
      case calls => rfl
      case deltas => exact (Frame.Quiet.deltasAt ⟨rfl, rfl⟩ _ _).trans (hdeltas index)

/-- A signature is no part of the arguments. -/
theorem noteSignature_advances (h : Calling lib stream) (part : Json.Fields) {steady : Prop}
    (hsteady : steady) : Advances lib stream (stream.noteSignature part) steady := by
  unfold noteSignature
  split
  case h_1 => exact advances_of_same h h.toShaped rfl (fun _ => rfl) hsteady
  case h_2 key call hlast =>
    have hcall : stream.calls[key]? = some call :=
      Std.ExtTreeMap.mem_toList_iff_getElem?_eq_some.mp (List.mem_of_getLast? hlast)
    let signed : GeminiStreamCall := { call with thoughtSignature := thoughtSignature part }
    have hsigned : (stream.calls.insert key signed)[key]? = some signed := by
      rw [getElem?_insert_ite, if_pos rfl]
    have hothers : Others stream { stream with calls := stream.calls.insert key signed } key := by
      refine ⟨fun key' other hne => ?_, fun _ _ _ _ => rfl⟩
      simp only [getElem?_insert_ite, if_neg (Ne.symm hne)]
    have hshaped := @Shaped.update stream key call h.toShaped hcall signed rfl
      { h.usable key call hcall with }
    refine .inr ⟨h.step hothers hshaped fun other hother hkind => ?_,
      fun _ hfaithful => hfaithful.step hothers fun other hother hkind => ?_, ?_⟩
    · obtain rfl := Option.some.inj (hsigned.symm.trans hother)
      exact h.sent key call hcall hkind
    · obtain rfl := Option.some.inj (hsigned.symm.trans hother)
      exact hfaithful key call hcall hkind
    · rintro (hnot | hbroken)
      · exact absurd hsteady hnot
      · refine hbroken.step hothers fun other hother hkind hlonger => ?_
        obtain rfl := Option.some.inj (hcall.symm.trans hother)
        exact ⟨key, signed, hsigned, hkind, hlonger⟩

theorem handlePart_advances (hprints : ∀ fields, lib.serde.toString (.object fields) ≠ "")
    (h : Calling lib stream) (partIndex : Nat) (value : Json) :
    Advances lib stream (stream.handlePart lib partIndex value)
      (SteadyPart lib stream partIndex value) := by
  unfold handlePart
  cases hpart : value.asObject with
  | none => exact failInvalid_advances h _
  | some part =>
    dsimp only
    cases htext : (part.get "text").bind Json.asStr with
    | some text =>
      have hsteady : SteadyPart lib stream partIndex value := by
        rintro part' _ _ _ _ hpart' hno
        obtain rfl := Option.some.inj (hpart.symm.trans hpart')
        exact nomatch htext.symm.trans hno
      dsimp only
      split
      · exact handleThought_advances h text hsteady
      · exact handleText_advances h text hsteady
    | none =>
      dsimp only
      cases hcall : (part.get "functionCall").bind Json.asObject with
      | some call =>
        refine (handleFunctionCall_advances hprints h partIndex).congr ⟨?_, ?_⟩
        · rintro hsteady part' call' key state args hpart' - hcall'
          obtain rfl := Option.some.inj (hpart.symm.trans hpart')
          obtain rfl := Option.some.inj (hcall.symm.trans hcall')
          exact hsteady key state args
        · exact fun hsteady key state args => hsteady part call key state args hpart htext hcall
      | none =>
        have hsteady : SteadyPart lib stream partIndex value := by
          rintro part' call' _ _ _ hpart' - hcall'
          obtain rfl := Option.some.inj (hpart.symm.trans hpart')
          exact nomatch hcall.symm.trans hcall'
        dsimp only
        split
        · exact noteSignature_advances h part hsteady
        · exact failInvalid_advances h _

theorem Advances.trans {middle : GeminiStream} {steady steady' : Prop}
    (h : Advances lib stream middle steady) (hrunning : middle.terminal = false)
    (h' : Calling lib middle → Advances lib middle stream' steady') :
    Advances lib stream stream' (steady ∧ (middle.terminal = false → steady')) := by
  rcases h with hfailed | ⟨hcalling, hfaithful, hbroken⟩
  · exact nomatch hrunning.symm.trans hfailed.1
  · rcases h' hcalling with hfailed | ⟨hcalling', hfaithful', hbroken'⟩
    · exact .inl hfailed
    · refine .inr ⟨hcalling', fun hsteady hwhole => ?_, ?_⟩
      · exact hfaithful' (hsteady.2 hrunning) (hfaithful hsteady.1 hwhole)
      · rintro (hnot | hbefore)
        · rw [not_and_or, Classical.not_imp] at hnot
          rcases hnot with hnot | hnot
          · exact hbroken' (.inr (hbroken (.inl hnot)))
          · exact hbroken' (.inl hnot.2)
        · exact hbroken' (.inr (hbroken (.inr hbefore)))

theorem handleParts_advances (hprints : ∀ fields, lib.serde.toString (.object fields) ≠ "")
    (h : Calling lib stream) (partIndex : Nat) (parts : List Json) :
    Advances lib stream (stream.handleParts lib partIndex parts)
      (SteadyParts lib stream partIndex parts) := by
  induction parts generalizing stream partIndex with
  | nil => exact advances_of_same h h.toShaped rfl (fun _ => rfl) trivial
  | cons part parts ih =>
    have hpart := handlePart_advances hprints h partIndex part
    rw [handleParts]
    split
    case isTrue hterminal =>
      rcases hpart with hfailed | ⟨hcalling, -⟩
      · exact .inl hfailed
      · cases hterminal.symm.trans hcalling.running
    case isFalse hrunning =>
      exact hpart.trans (Bool.eq_false_iff.mpr hrunning) fun hcalling => ih hcalling (partIndex + 1)

end

/-! ## The end -/

/-- The item of an output. -/
inductive Matches (lib : Libraries) (stream : GeminiStream) : GeminiStreamOutput → OutputItem → Prop
  | text {id : String} {status : ItemStatus} {texts : List String} :
      Matches lib stream .text (.message id status texts)
  | thinking {id : String} {status : ItemStatus} {texts : List String} :
      Matches lib stream .thinking (.reasoning id status texts)
  | call {key : Nat} {call : GeminiStreamCall} {item : ToolCallItem} :
      stream.calls[key]? = some call → item.kind = call.kind →
      (call.kind = .function → item.payload = lib.serde.toString call.args) →
      Matches lib stream (.call key) (.toolCall item)

/-- What is built of the outputs so far: their items, the last one perhaps not in the output yet. -/
inductive Built (lib : Libraries) (stream : GeminiStream) (outputs : List GeminiStreamOutput)
    (builder : GeminiOutputBuilder) : Prop
  | whole : List.Forall₂ (Matches lib stream) outputs builder.output → builder.text = "" →
      builder.reasoning = "" → Built lib stream outputs builder
  | text {front : List GeminiStreamOutput} : outputs = front ++ [.text] →
      List.Forall₂ (Matches lib stream) front builder.output → builder.text ≠ "" →
      builder.reasoning = "" → Built lib stream outputs builder
  | thinking {front : List GeminiStreamOutput} : outputs = front ++ [.thinking] →
      List.Forall₂ (Matches lib stream) front builder.output → builder.text = "" →
      builder.reasoning ≠ "" → Built lib stream outputs builder

theorem forall₂_concat {α β : Type} {R : α → β → Prop} {as : List α} {bs : List β} {a : α} {b : β}
    (h : List.Forall₂ R as bs) (hlast : R a b) : List.Forall₂ R (as ++ [a]) (bs ++ [b]) := by
  induction h with
  | nil => exact .cons hlast .nil
  | cons hhead _ ih => exact .cons hhead ih

section
variable {lib : Libraries} {stream : GeminiStream} {outputs : List GeminiStreamOutput}
  {builder : GeminiOutputBuilder}

/-- Before something other than text. -/
theorem Built.flushText (h : Built lib stream outputs builder) (responseId : String) :
    Built lib stream outputs (builder.flushText responseId) ∧
      (builder.flushText responseId).text = "" := by
  unfold GeminiOutputBuilder.flushText
  split
  case isTrue hempty => exact ⟨h, hempty⟩
  case isFalse hne =>
    cases h with
    | whole _ hempty => exact absurd hempty hne
    | text houtputs hfront _ hreasoning =>
      exact ⟨.whole (houtputs ▸ forall₂_concat hfront .text) rfl hreasoning, rfl⟩
    | thinking _ _ hempty => exact absurd hempty hne

/-- Before something other than thoughts. -/
theorem Built.flushReasoning (h : Built lib stream outputs builder) (responseId : String) :
    Built lib stream outputs (builder.flushReasoning responseId) ∧
      (builder.flushReasoning responseId).reasoning = "" ∧
      (builder.flushReasoning responseId).text = builder.text := by
  unfold GeminiOutputBuilder.flushReasoning
  split
  case isTrue hempty => exact ⟨h, hempty, rfl⟩
  case isFalse hne =>
    cases h with
    | whole _ _ hempty => exact absurd hempty hne
    | text _ _ _ hempty => exact absurd hempty hne
    | thinking houtputs hfront htext =>
      exact ⟨.whole (houtputs ▸ forall₂_concat hfront .thinking) htext rfl, rfl, rfl⟩

theorem Built.items (h : Built lib stream outputs builder) (htext : builder.text = "")
    (hreasoning : builder.reasoning = "") :
    List.Forall₂ (Matches lib stream) outputs builder.output := by
  cases h with
  | whole hitems => exact hitems
  | text _ _ hne => exact absurd htext hne
  | thinking _ _ _ hne => exact absurd hreasoning hne

theorem Built.flushed (h : Built lib stream outputs builder) (responseId : String) :
    List.Forall₂ (Matches lib stream) outputs
      ((builder.flushText responseId).flushReasoning responseId).output := by
  obtain ⟨hflushed, htext⟩ := h.flushText responseId
  obtain ⟨hboth, hreasoning, hkept⟩ := hflushed.flushReasoning responseId
  exact hboth.items (hkept.trans htext) hreasoning

/-- The fields of a call at the end of a stream. -/
theorem functionCall_fields (name id : String) (args : Json) (signature : Option String) :
    ∃ fields : Json.Fields, Json.ofFields
        ([("name", .string name), ("args", args), ("id", .string id)] ++
          signature.toList.map fun signature => ("thoughtSignature", Json.string signature)) =
        .object fields ∧
      (fields.get "name").bind Json.asStr = some name ∧ fields.get "args" = some args ∧
      fields.get "partialArgs" = none := by
  refine ⟨_, rfl, ?_⟩
  have hget := Json.get_ofFields ([("name", .string name), ("args", args), ("id", .string id)] ++
    signature.toList.map fun signature => ("thoughtSignature", Json.string signature))
  rw [Json.ofFields] at hget
  simp only [Json.get] at hget
  rw [hget, hget, hget]
  cases signature <;> simp [Json.Fields.get_cons]

theorem functionCallArgs_plain {call : Json.Fields} {args : Json} (hargs : call.get "args" = some args)
    (hobject : args.isObject = true) (hpatches : call.get "partialArgs" = none) :
    functionCallArgs lib call = .ok args := by
  simp [functionCallArgs, hargs, hobject, hpatches, pure, Except.pure]

theorem outputPart_functionCall (lib : Libraries) (request : GeminiBridgeRequest)
    (builder : GeminiOutputBuilder) (call : Json.Fields) :
    outputPart lib request builder (.ofFields [("functionCall", .object call)]) =
      outputCall lib request
        ((builder.flushText request.responseId).flushReasoning request.responseId) call := by
  simp [outputPart, Json.ofFields, Json.Fields.insert, Json.asObject, okOr, Json.Fields.get_cons, bind,
    Except.bind]

theorem outputCall_ok {request : GeminiBridgeRequest} {call : Json.Fields} {name : String} {args : Json}
    {builder' : GeminiOutputBuilder} (hname : (call.get "name").bind Json.asStr = some name)
    (hargs : functionCallArgs lib call = .ok args)
    (h : outputCall lib request builder call = .ok builder') :
    ∃ target callId payload index, request.state.clientTool name = some target ∧
      geminiPayload lib target.kind args = .ok payload ∧
      builder' = { builder with
        output := builder.output ++ [.toolCall (toolCallItem target callId .completed payload)]
        callIndex := index } := by
  rw [outputCall, hname] at h
  obtain ⟨upstreamName, hupstream, hfound⟩ := bind_eq_ok.mp h
  obtain ⟨target, htarget, hbuilt⟩ := bind_eq_ok.mp hfound
  rw [okOr_eq_ok] at hupstream htarget
  simp only [hargs] at hbuilt
  obtain ⟨payload, hpayload, hresult⟩ := bind_eq_ok.mp hbuilt
  have hsame : name = upstreamName := Option.some.inj (Option.filter_eq_some_iff.mp hupstream).1
  exact ⟨target, _, payload, _, hsame ▸ htarget, hpayload, (Except.ok.inj hresult).symm⟩

/-- What an output adds. -/
theorem Built.outputPart (h : Built lib stream outputs builder) (hshaped : Shaped stream)
    {entry : GeminiStreamOutput} (hentry : entry ∈ stream.order) (hfresh : entry ∉ outputs)
    {part : Json} (hpart : stream.orderPart entry = some part) {builder' : GeminiOutputBuilder}
    (hok : outputPart lib stream.request builder part = .ok builder') :
    Built lib stream (outputs ++ [entry]) builder' := by
  cases entry with
  | text =>
    have hne : stream.text ≠ "" := hshaped.text.mp hentry
    rw [orderPart, if_neg hne, Option.some.injEq] at hpart
    obtain ⟨hflushed, hreasoning, htext⟩ := h.flushReasoning stream.request.responseId
    rw [← hpart, outputPart_text] at hok
    obtain rfl := Except.ok.inj hok
    -- There was no text before.
    have hnone : (builder.flushReasoning stream.request.responseId).text = "" := by
      cases hflushed with
      | whole _ hempty => exact hempty
      | text houtputs => exact absurd (houtputs ▸ List.mem_append_right _ (List.mem_singleton_self _)) hfresh
      | thinking _ _ hempty => exact hempty
    refine .text rfl (hflushed.items hnone hreasoning) ?_ hreasoning
    simpa [hnone] using hne
  | thinking =>
    have hne : stream.thinking ≠ "" := hshaped.thinking.mp hentry
    rw [orderPart, if_neg hne, Option.some.injEq] at hpart
    obtain ⟨hflushed, htext⟩ := h.flushText stream.request.responseId
    rw [← hpart, outputPart_thought] at hok
    obtain rfl := Except.ok.inj hok
    -- There were no thoughts before.
    have hnone : (builder.flushText stream.request.responseId).reasoning = "" := by
      cases hflushed with
      | whole _ _ hempty => exact hempty
      | text _ _ _ hempty => exact hempty
      | thinking houtputs =>
        exact absurd (houtputs ▸ List.mem_append_right _ (List.mem_singleton_self _)) hfresh
    refine .thinking rfl (hflushed.items htext hnone) htext ?_
    simpa [hnone] using hne
  | call key =>
    obtain ⟨call, hcall⟩ := hshaped.listed key hentry
    have husable := hshaped.usable key call hcall
    rw [orderPart, hcall, Option.map_some, Option.some.injEq] at hpart
    obtain ⟨fields, hfields, hname, hargs, hpatches⟩ :=
      functionCall_fields call.name call.id call.args call.thoughtSignature
    rw [← hpart, hfields, outputPart_functionCall] at hok
    obtain ⟨target, callId, payload, index, htarget, hpayload, rfl⟩ :=
      outputCall_ok hname (functionCallArgs_plain hargs husable.args hpatches) hok
    obtain ⟨target', htarget', hkind⟩ := husable.target
    obtain rfl := Option.some.inj (htarget.symm.trans htarget')
    obtain ⟨hflushed, htext⟩ := h.flushText stream.request.responseId
    obtain ⟨-, hreasoning, hkept⟩ := hflushed.flushReasoning stream.request.responseId
    refine .whole (forall₂_concat (h.flushed _) (.call hcall hkind fun hfunction => ?_))
      (hkept.trans htext) hreasoning
    rw [hkind.trans hfunction, geminiPayload] at hpayload
    exact (Except.ok.inj hpayload).symm

/-- The items of the response are those of the order. -/
theorem output_matches (hshaped : Shaped stream) {output : List OutputItem}
    (hok : responsesOutputFromGeminiParts lib stream.request
      (stream.order.filterMap stream.orderPart) = .ok output) :
    List.Forall₂ (Matches lib stream) stream.order output := by
  obtain ⟨final, hfold, hflush⟩ := bind_eq_ok.mp hok
  obtain rfl := Except.ok.inj hflush
  have hbuilt : ∀ rest outputs builder, outputs ++ rest = stream.order →
      Built lib stream outputs builder →
      (rest.filterMap stream.orderPart).foldlM (outputPart lib stream.request) builder = .ok final →
      Built lib stream stream.order final := by
    intro rest
    induction rest with
    | nil =>
      rintro outputs builder hsplit h hrest
      rw [List.append_nil] at hsplit
      obtain rfl := Except.ok.inj hrest
      exact hsplit ▸ h
    | cons entry rest ih =>
      rintro outputs builder hsplit h hrest
      have hentry : entry ∈ stream.order := hsplit ▸ List.mem_append_right _ List.mem_cons_self
      have hfresh : entry ∉ outputs := by
        have hnodup := hsplit ▸ hshaped.nodup
        exact fun hmem => (List.nodup_append.mp hnodup).2.2 entry hmem entry List.mem_cons_self rfl
      obtain ⟨part, hpart⟩ : ∃ part, stream.orderPart entry = some part := by
        cases entry with
        | text => exact ⟨_, if_neg (hshaped.text.mp hentry)⟩
        | thinking => exact ⟨_, if_neg (hshaped.thinking.mp hentry)⟩
        | call key =>
          obtain ⟨call, hcall⟩ := hshaped.listed key hentry
          exact ⟨_, by rw [orderPart, hcall, Option.map_some]⟩
      rw [List.filterMap_cons_some hpart, List.foldlM_cons] at hrest
      obtain ⟨next, hnext, hrest⟩ := bind_eq_ok.mp hrest
      exact ih (outputs ++ [entry]) next (by rw [← hsplit, List.append_assoc]; rfl)
        (h.outputPart hshaped hentry hfresh hpart hnext) hrest
  exact (hbuilt stream.order [] {} rfl (.whole .nil rfl rfl) hfold).flushed _

end

theorem exists_of_forall₂ {α β : Type} {R : α → β → Prop} {as : List α} {bs : List β}
    (h : List.Forall₂ R as bs) {i : Nat} {b : β} (hb : bs[i]? = some b) :
    ∃ a, as[i]? = some a ∧ R a b := by
  induction h generalizing i with
  | nil => exact nomatch hb
  | cons hhead _ ih =>
    cases i with
    | zero =>
      obtain rfl := Option.some.inj hb
      exact ⟨_, rfl, hhead⟩
    | succ i => exact ih hb

/-- Only a function call ends arguments. -/
theorem mem_argumentsDone_doneFrames (responseId : String) (place : Nat) (item : OutputItem)
    (index : Nat) (arguments : String) :
    (index, arguments) ∈ (doneFrames responseId place item).filterMap Frame.argumentsDone ↔
      ∃ call, item = .toolCall call ∧ call.kind = .function ∧ place = index ∧
        call.payload = arguments := by
  cases item with
  | toolCall call =>
    cases hkind : call.kind <;>
      simp [doneFrames, hkind, Frame.argumentsDone, List.filterMap_cons, eq_comm]
  | message _ _ _ => simp [doneFrames, Frame.argumentsDone, List.filterMap_cons]
  | reasoning _ _ _ => simp [doneFrames, Frame.argumentsDone, List.filterMap_cons]

/-- The calls whose arguments end. -/
theorem mem_argumentsDone (responseId : String) (items : List OutputItem) (index : Nat)
    (arguments : String) :
    (index, arguments) ∈ (items.zipIdx.flatMap fun item =>
        doneFrames responseId item.2 item.1).filterMap Frame.argumentsDone ↔
      ∃ call, items[index]? = some (.toolCall call) ∧ call.kind = .function ∧
        call.payload = arguments := by
  rw [List.filterMap_flatMap, List.mem_flatMap]
  simp only [mem_argumentsDone_doneFrames, Prod.exists, List.mk_mem_zipIdx_iff_getElem?]
  constructor
  · rintro ⟨item, place, hitem, call, rfl, hkind, rfl, hpayload⟩
    exact ⟨call, hitem, hkind, hpayload⟩
  · rintro ⟨call, hitem, hkind, hpayload⟩
    exact ⟨_, index, hitem, call, rfl, hkind, rfl, hpayload⟩

theorem deltasAt_doneFrames (responseId : String) (items : List (OutputItem × Nat)) (index : Nat) :
    deltasAt index (items.flatMap fun item => doneFrames responseId item.2 item.1) = [] := by
  have hnone : ∀ place item, (doneFrames responseId place item).filterMap Frame.argumentsDelta = [] := by
    intro place item
    cases item with
    | toolCall call =>
      cases hkind : call.kind <;> simp [doneFrames, hkind, Frame.argumentsDelta, List.filterMap_cons]
    | message _ _ _ => rfl
    | reasoning _ _ _ => rfl
  rw [deltasAt, List.filterMap_flatMap]
  simp [hnone]

section
variable {lib : Libraries} {stream : GeminiStream}

/-- The end of the arguments of every function call. -/
theorem argumentsDone_iff (hshaped : Shaped stream) {output : List OutputItem}
    (hmatches : List.Forall₂ (Matches lib stream) stream.order output) (responseId : String)
    (index : Nat) (arguments : String) :
    (index, arguments) ∈ (output.zipIdx.flatMap fun item =>
        doneFrames responseId item.2 item.1).filterMap Frame.argumentsDone ↔
      ∃ (key : Nat) (call : GeminiStreamCall), stream.calls[key]? = some call ∧
        call.kind = .function ∧ call.outputIndex = index ∧
        lib.serde.toString call.args = arguments := by
  rw [mem_argumentsDone]
  constructor
  · rintro ⟨item, hitem, hkind, rfl⟩
    obtain ⟨entry, hentry, hmatch⟩ := exists_of_forall₂ hmatches hitem
    cases hmatch with
    | @call key call _ hcall hsame hpayload =>
      have hfunction : call.kind = .function := hsame.symm.trans hkind
      refine ⟨key, call, hcall, hfunction, ?_, (hpayload hfunction).symm⟩
      have hplaced := hshaped.placed key call hcall
      exact (List.getElem?_inj (hshaped.outputIndex_lt hcall) hshaped.nodup).mp
        (hplaced.trans hentry.symm)
  · rintro ⟨key, call, hcall, hfunction, rfl, rfl⟩
    obtain ⟨item, hitem, hmatch⟩ := exists_of_forall₂ hmatches.flip (hshaped.placed key call hcall)
    cases hmatch with
    | @call _ call' item hcall' hsame hpayload =>
      obtain rfl := Option.some.inj (hcall.symm.trans hcall')
      exact ⟨item, hitem, hsame.trans hfunction, hpayload hfunction⟩

theorem matches_of_translate (hshaped : Shaped stream) {response : MessagesBridgeResponse}
    (h : translateGeminiResponse lib stream.request stream.upstreamResponse = .ok response) :
    List.Forall₂ (Matches lib stream) stream.order response.responseBody.output := by
  obtain ⟨candidate, hcandidate, hparts, -⟩ := firstCandidate_upstreamResponse stream
  obtain ⟨candidate', hcandidate', hrest⟩ := bind_eq_ok.mp h
  obtain ⟨parts, hparts', hrest⟩ := bind_eq_ok.mp hrest
  obtain ⟨output, houtput, hrest⟩ := bind_eq_ok.mp hrest
  rw [okOr_eq_ok] at hcandidate' hparts'
  obtain rfl := Option.some.inj (hcandidate.symm.trans hcandidate')
  obtain rfl := Option.some.inj (hparts.symm.trans hparts')
  split at hrest
  case isTrue => exact nomatch hrest
  case isFalse =>
    obtain rfl := Except.ok.inj hrest
    exact output_matches hshaped houtput

/-- What a stream that ends leaves to the client. -/
def Ends (lib : Libraries) (stream stream' : GeminiStream) : Prop :=
  stream'.terminal = true ∧ (stream'.completed = none ∨
    (stream.Faithful → Reassembles lib stream'.output) ∧
    (stream.Broken → ¬ Reassembles lib stream'.output))

theorem fail_ends (h : Calling lib stream) (error : AdapterError) :
    Ends lib stream (stream.fail error) := by
  rw [fail, if_neg (by rw [h.running]; exact Bool.false_ne_true)]
  exact ⟨rfl, .inl h.pending⟩

theorem complete_ends (h : Calling lib stream) : Ends lib stream (stream.complete lib) := by
  rw [complete, if_neg (by rw [h.running]; exact Bool.false_ne_true)]
  split
  case isTrue => exact fail_ends h _
  case isFalse =>
    split
    case h_1 => exact fail_ends h _
    case h_2 response hresponse =>
      have hdone := argumentsDone_iff h.toShaped (matches_of_translate h.toShaped hresponse)
        stream.request.responseId
      have hframes : ∀ index arguments, (index, arguments) ∈ (stream.output ++
          (response.responseBody.output.zipIdx.flatMap fun item =>
            doneFrames stream.request.responseId item.2 item.1) ++
          [Frame.completed response.responseBody]).filterMap Frame.argumentsDone ↔
          ∃ (key : Nat) (call : GeminiStreamCall), stream.calls[key]? = some call ∧
            call.kind = .function ∧ call.outputIndex = index ∧
            lib.serde.toString call.args = arguments := by
        intro index arguments
        rw [Frame.Quiet.argumentsDone ⟨rfl, rfl⟩, List.filterMap_append, h.going, List.nil_append]
        exact hdone index arguments
      have hdeltas : ∀ index, deltasAt index (stream.output ++
          (response.responseBody.output.zipIdx.flatMap fun item =>
            doneFrames stream.request.responseId item.2 item.1) ++
          [Frame.completed response.responseBody]) = deltasAt index stream.output := by
        intro index
        rw [Frame.Quiet.deltasAt ⟨rfl, rfl⟩, deltasAt_append, deltasAt_doneFrames, List.append_nil]
      refine ⟨rfl, .inr ⟨fun hfaithful => ?_, fun hbroken => ?_⟩⟩
      · rintro index arguments hmem
        obtain ⟨key, call, hcall, hkind, rfl, rfl⟩ := (hframes index arguments).mp hmem
        have hwhole : String.join (deltasAt call.outputIndex stream.output) = call.emittedArguments :=
          hfaithful key call hcall hkind
        dsimp only
        rw [hdeltas]
        rcases h.sent key call hcall hkind with ⟨-, hnothing, hargs⟩ | ⟨-, hemitted, -, -⟩
        · exact .inr ⟨hnothing, congrArg _ hargs⟩
        · exact .inl (hwhole.trans hemitted)
      · obtain ⟨key, call, hcall, hkind, hlonger⟩ := hbroken
        intro hreassembles
        have hend := hreassembles call.outputIndex _
          ((hframes _ _).mpr ⟨key, call, hcall, hkind, rfl, rfl⟩)
        dsimp only at hend
        rw [hdeltas] at hend
        rcases h.sent key call hcall hkind with ⟨hempty, hnothing, -⟩ | ⟨-, hemitted, hsome, -⟩
        · refine hlonger.not_whole ?_
          rw [Line.Whole, line, hempty, hnothing]
          rfl
        · rcases hend with hjoin | ⟨hnothing, -⟩
          · exact hlonger.not_whole (hjoin.trans hemitted.symm)
          · exact hsome hnothing

end

/-! ## Events -/

section
variable {lib : Libraries} {stream stream' : GeminiStream}

/-- What an event does: the stream advances, or it ends, and then the deltas make up the arguments
exactly when the stream was faithful and the event steady. -/
def Follows (lib : Libraries) (stream stream' : GeminiStream) (steady : Prop) : Prop :=
  Advances lib stream stream' steady ∨
  stream'.terminal = true ∧ (steady → stream.Faithful → Reassembles lib stream'.output) ∧
    (¬ steady ∨ stream.Broken → ¬ Reassembles lib stream'.output)

theorem Ends.follows (h : Ends lib stream stream') {steady : Prop} (hsteady : steady) :
    Follows lib stream stream' steady := by
  obtain ⟨hterminal, hpending | ⟨hfaithful, hbroken⟩⟩ := h
  · exact .inl (.inl ⟨hterminal, hpending⟩)
  · refine .inr ⟨hterminal, fun _ => hfaithful, ?_⟩
    rintro (hnot | hbefore)
    · exact absurd hsteady hnot
    · exact hbroken hbefore

theorem Advances.ends {middle : GeminiStream} {steady : Prop} (h : Advances lib stream middle steady)
    (hrunning : middle.terminal = false) (h' : Calling lib middle → Ends lib middle stream') :
    Follows lib stream stream' steady := by
  rcases h with hfailed | ⟨hcalling, hfaithful, hbroken⟩
  · exact nomatch hrunning.symm.trans hfailed.1
  · obtain ⟨hterminal, hpending | ⟨hfaithful', hbroken'⟩⟩ := h' hcalling
    · exact .inl (.inl ⟨hterminal, hpending⟩)
    · exact .inr ⟨hterminal, fun hsteady hwhole => hfaithful' (hfaithful hsteady hwhole),
        fun hbefore => hbroken' (hbroken hbefore)⟩

/-- How the upstream ended does not matter to the arguments. -/
theorem complete_ends_of_finished (h : Calling lib stream) (finishReason : Option String) :
    Ends lib stream ({ stream with finishReason, finishedUpstream := true }.complete lib) :=
  have hcalling : Calling lib { stream with finishReason, finishedUpstream := true } := { h with }
  complete_ends hcalling

theorem handleCandidate_follows (hprints : ∀ fields, lib.serde.toString (.object fields) ≠ "")
    (h : Calling lib stream) (candidate : Json) :
    Follows lib stream (stream.handleCandidate lib candidate)
      (∀ parts, candidateParts candidate = some parts → SteadyParts lib stream 0 parts) := by
  unfold handleCandidate
  cases hparts : candidateParts candidate with
  | none =>
    dsimp only
    split
    · exact (complete_ends_of_finished h stream.finishReason).follows nofun
    · exact .inl (failInvalid_advances h _)
  | some parts =>
    have hadvances := (handleParts_advances hprints h 0 parts).congr
      (⟨fun hsteady parts' hparts' => Option.some.inj hparts' ▸ hsteady, fun hsteady => hsteady parts rfl⟩ :
        _ ↔ ∀ parts', some parts = some parts' → SteadyParts lib stream 0 parts')
    dsimp only
    split
    case isTrue => exact .inl hadvances
    case isFalse hrunning =>
      split
      case h_1 => exact .inl hadvances
      case h_2 reason _ =>
        exact hadvances.ends (Bool.eq_false_iff.mpr hrunning) fun hcalling =>
          complete_ends_of_finished hcalling (some reason)

theorem Follows.congr {steady steady' : Prop} (h : Follows lib stream stream' steady)
    (hiff : steady ↔ steady') : Follows lib stream stream' steady' :=
  propext hiff ▸ h

theorem handleEvent_follows (hprints : ∀ fields, lib.serde.toString (.object fields) ≠ "")
    (h : Calling lib stream) (event : List UInt8) :
    Follows lib stream (stream.handleEvent lib event) (SteadyEvent lib stream event) := by
  unfold handleEvent
  split
  case isTrue hdone =>
    have hsteady : SteadyEvent lib stream event := by
      rintro value candidate parts hdata
      exact nomatch hdone.symm.trans hdata
    unfold finish
    split
    · exact (complete_ends h).follows hsteady
    · exact .inl (failInvalid_advances h _)
  case isFalse hdata =>
    cases hvalue : parseSseData lib.serde event with
    | none =>
      have hsteady : SteadyEvent lib stream event := by
        rintro value candidate parts - hparsed
        exact nomatch hvalue.symm.trans hparsed
      dsimp only
      split
      · exact .inl (failInvalid_advances h _)
      · exact .inl (advances_of_same h h.toShaped rfl (fun _ => rfl) hsteady)
    | some value =>
      dsimp only
      unfold handleValue
      split
      case isTrue herror =>
        have hcalling : Calling lib { stream with upstreamError := some value } := { h with }
        exact .inl (failInvalid_advances hcalling _)
      case isFalse hgood =>
        rw [Bool.not_eq_true, Option.isSome_eq_false_iff, Option.isNone_iff_eq_none] at hgood
        dsimp only
        cases hcandidate : firstCandidate value with
        | none =>
          have hsteady : SteadyEvent lib stream event := by
            rintro value' candidate parts - hparsed - hfirst
            obtain rfl := Option.some.inj (hvalue.symm.trans hparsed)
            exact nomatch hcandidate.symm.trans hfirst
          have hshaped : Shaped { stream with usage := (value.get "usageMetadata").or stream.usage } :=
            { h.toShaped with }
          exact .inl (advances_of_same h hshaped rfl (fun _ => rfl) hsteady)
        | some candidate =>
          have hcalling : Calling lib
              { stream with usage := (value.get "usageMetadata").or stream.usage } := { h with }
          refine Follows.congr (handleCandidate_follows hprints hcalling candidate)
            ⟨?_, fun hsteady parts hparts => ?_⟩
          · rintro hsteady value' candidate' parts - hparsed - hfirst hparts
            obtain rfl := Option.some.inj (hvalue.symm.trans hparsed)
            obtain rfl := Option.some.inj (hcandidate.symm.trans hfirst)
            exact hsteady parts hparts
          · exact hsteady value candidate parts (Bool.eq_false_iff.mpr hdata) hvalue hgood hcandidate hparts

/-! ## Runs -/

theorem Follows.trans {middle : GeminiStream} {steady steady' : Prop}
    (h : Follows lib stream middle steady) (hstays : middle.terminal = true → stream' = middle ∧ steady')
    (h' : Calling lib middle → Follows lib middle stream' steady') :
    Follows lib stream stream' (steady ∧ steady') := by
  rcases h with (hfailed | ⟨hcalling, hfaithful, hbroken⟩) | ⟨hterminal, hfaithful, hbroken⟩
  · obtain ⟨rfl, -⟩ := hstays hfailed.1
    exact .inl (.inl hfailed)
  · have carried : ∀ {goal : Prop}, (¬ steady' ∨ middle.Broken → goal) →
        ¬ (steady ∧ steady') ∨ stream.Broken → goal := by
      rintro goal hgoal (hnot | hbefore)
      · rcases not_and_or.mp hnot with hnot | hnot
        · exact hgoal (.inr (hbroken (.inl hnot)))
        · exact hgoal (.inl hnot)
      · exact hgoal (.inr (hbroken (.inr hbefore)))
    rcases h' hcalling with (hfailed | ⟨hcalling', hfaithful', hbroken'⟩) | ⟨hterminal, hfaithful', hbroken'⟩
    · exact .inl (.inl hfailed)
    · exact .inl (.inr ⟨hcalling', fun hsteady hwhole => hfaithful' hsteady.2 (hfaithful hsteady.1 hwhole),
        carried hbroken'⟩)
    · exact .inr ⟨hterminal, fun hsteady hwhole => hfaithful' hsteady.2 (hfaithful hsteady.1 hwhole),
        carried hbroken'⟩
  · obtain ⟨rfl, hsteady'⟩ := hstays hterminal
    refine .inr ⟨hterminal, fun hsteady => hfaithful hsteady.1, ?_⟩
    rintro (hnot | hbefore)
    · exact hbroken (.inl fun hsteady => hnot ⟨hsteady, hsteady'⟩)
    · exact hbroken (.inr hbefore)

theorem handleAll_follows (hprints : ∀ fields, lib.serde.toString (.object fields) ≠ "")
    (h : Calling lib stream) (events : List (List UInt8)) :
    Follows lib stream (handleAll (handleEvent lib) terminal stream events)
      (Steady lib stream events) := by
  induction events generalizing stream with
  | nil => exact .inl (advances_of_same h h.toShaped rfl (fun _ => rfl) trivial)
  | cons event events ih =>
    rw [handleAll, if_neg (by rw [h.running]; exact Bool.false_ne_true)]
    have hsteady : SteadyEvent lib stream event ∧ Steady lib (stream.handleEvent lib event) events ↔
        Steady lib stream (event :: events) :=
      ⟨fun hboth _ => hboth, fun hall => hall h.running⟩
    refine Follows.congr (Follows.trans (handleEvent_follows hprints h event) (fun hterminal => ?_)
      fun hcalling => ih hcalling) hsteady
    refine ⟨handleAll_of_terminal hterminal events, ?_⟩
    cases events with
    | nil => trivial
    | cons _ _ => exact fun hrunning => by cases hterminal.symm.trans hrunning

theorem calling_new (lib : Libraries) (request : GeminiBridgeRequest) : Calling lib (new request) where
  running := rfl
  pending := rfl
  next := rfl
  nodup := List.nodup_nil
  text := by simp [new]
  textStarted := by simp [new]
  thinking := by simp [new]
  placed _ _ hcall := nomatch hcall
  listed _ hkey := nomatch hkey
  usable _ _ hcall := nomatch hcall
  going := rfl
  fresh _ _ := rfl
  sent _ _ hcall := nomatch hcall

end

end GeminiStream

/-- The deltas of a completed stream make up the arguments of its calls exactly when the arguments of
a call never change into a text that does not go on from what was sent. -/
theorem arguments_reassemble_iff (lib : Libraries)
    (hprints : ∀ fields, lib.serde.toString (.object fields) ≠ "") (request : GeminiBridgeRequest)
    (chunks : List (List UInt8))
    (hcompleted : ((chunks.foldl (GeminiStreamBridge.push lib) (.new request)).finish
      lib).core.completed.isSome = true) :
    Reassembles lib
        ((chunks.foldl (GeminiStreamBridge.push lib) (.new request)).finish lib).core.output ↔
      GeminiStream.Steady lib (.new request) (framesOf eventEnd chunks) := by
  have hnew := GeminiStream.calling_new lib request
  have hfollows := GeminiStream.handleAll_follows hprints hnew (framesOf eventEnd chunks)
  have hcore : (chunks.foldl (GeminiStreamBridge.push lib) (.new request)).core =
      handleAll (GeminiStream.handleEvent lib) GeminiStream.terminal (.new request)
        (framesOf eventEnd chunks) :=
    pushAll_core (GeminiStream.new request) chunks
  rw [← hcore] at hfollows
  generalize chunks.foldl (GeminiStreamBridge.push lib) (.new request) = bridge at hcompleted hfollows
  have hwhole : GeminiStream.Faithful (.new request) := fun _ _ hcall => nomatch hcall
  -- What the end of the run leaves is decided by the steps before it.
  have decided : ∀ {final : GeminiStream},
      GeminiStream.Follows lib (.new request) final
        (GeminiStream.Steady lib (.new request) (framesOf eventEnd chunks)) →
      final.terminal = true → final.completed.isSome = true →
      (Reassembles lib final.output ↔
        GeminiStream.Steady lib (.new request) (framesOf eventEnd chunks)) := by
    rintro final ((⟨-, hpending⟩ | ⟨hcalling, -⟩) | ⟨-, hsteady, hbroken⟩) hterminal hsome
    · rw [hpending] at hsome
      exact nomatch hsome
    · exact nomatch hterminal.symm.trans hcalling.running
    · refine ⟨fun hreassembles => ?_, fun h => hsteady h hwhole⟩
      by_contra hnot
      exact hbroken (.inl hnot) hreassembles
  unfold GeminiStreamBridge.finish at hcompleted ⊢
  split at hcompleted
  case isTrue hterminal =>
    rw [if_pos hterminal]
    exact decided hfollows hterminal hcompleted
  case isFalse hrunning =>
    rw [if_neg hrunning]
    have hadvances := hfollows.resolve_right fun hended => hrunning hended.1
    have hends : GeminiStream.Calling lib bridge.core →
        GeminiStream.Ends lib bridge.core (bridge.core.finish lib) := by
      intro hcalling
      unfold GeminiStream.finish
      split
      · exact GeminiStream.complete_ends hcalling
      · exact GeminiStream.fail_ends hcalling _
    have hfinal := hadvances.ends (Bool.eq_false_iff.mpr hrunning) hends
    have hterminal : (bridge.core.finish lib).terminal = true := by
      rcases hadvances with hfailed | ⟨hcalling, -⟩
      · exact absurd hfailed.1 hrunning
      · exact (hends hcalling).1
    exact decided hfinal hterminal hcompleted

/-! ## A call in two patches -/

/-- A chunk with one part, a function call. -/
def callChunkText (call finish : String) : String :=
  chunkText ("\"content\":\x7b\"parts\":[\x7b\"functionCall\":\x7b" ++ call ++ "\x7d\x7d]\x7d" ++ finish)

theorem plain_callChunkText {call finish : String} (hcall : lf ∉ Bytes.utf8 call ∧ cr ∉ Bytes.utf8 call)
    (hfinish : lf ∉ Bytes.utf8 finish ∧ cr ∉ Bytes.utf8 finish) :
    lf ∉ Bytes.utf8 (callChunkText call finish) ∧ cr ∉ Bytes.utf8 (callChunkText call finish) :=
  plain_chunkText (plain_append (plain_append (plain_append (plain_ofList (by decide +kernel)) hcall)
    (plain_ofList (by decide +kernel))) hfinish)

def callChunk (call : Json.Fields) (finish : Json.Fields) : Json :=
  .ofFields [("candidates", .array [.ofFields (("content", .ofFields [("parts",
    .array [.ofFields [("functionCall", .ofFields call)]])]) :: finish)])]

/-- All arguments at once. -/
def wholeCallText : String := callChunkText "\"name\":\"f\",\"args\":\x7b\"a\":1\x7d" ",\"finishReason\":\"STOP\""

def wholeCall : Json :=
  callChunk [("name", .string "f"), ("args", .ofFields [("a", .ofNat 1)])] [("finishReason", .string "STOP")]

/-- One argument more. -/
def patchedCallText (key : String) (finish : String) : String :=
  callChunkText ("\"name\":\"f\",\"partialArgs\":[\x7b\"jsonPath\":\"$." ++ key ++
    "\",\"numberValue\":1\x7d]") finish

theorem plain_patchedCallText {key finish : String} (hkey : lf ∉ Bytes.utf8 key ∧ cr ∉ Bytes.utf8 key)
    (hfinish : lf ∉ Bytes.utf8 finish ∧ cr ∉ Bytes.utf8 finish) :
    lf ∉ Bytes.utf8 (patchedCallText key finish) ∧ cr ∉ Bytes.utf8 (patchedCallText key finish) :=
  plain_callChunkText (plain_append (plain_append (plain_ofList (by decide +kernel)) hkey)
    (plain_ofList (by decide +kernel))) hfinish

def patchedCall (key : String) (finish : Json.Fields) : Json :=
  callChunk [("name", .string "f"), ("partialArgs", .array [.ofFields
    [("jsonPath", .string ("$." ++ key)), ("numberValue", .ofNat 1)]])] finish

def callLibraries : Libraries :=
  .ofTexts [(wholeCallText, wholeCall), (patchedCallText "a" "", patchedCall "a" []),
    (patchedCallText "b" ",\"finishReason\":\"STOP\"", patchedCall "b" [("finishReason", .string "STOP")])]

def callRequest : GeminiBridgeRequest where
  upstreamBody := .ofFields []
  model := "gemini"
  responseId := "resp"
  state := { MessagesBridgeState.new "gemini" .disabled with
    tools := some [.ofFields [("name", .string "f")]]
    toolTargets := (∅ : Table String ClientToolTarget).insert "f" ⟨.function, "f", none⟩ }

def wholeCallEvent : SseEvent :=
  dataEvent .lf wholeCallText (plain_callChunkText (plain_ofList (by decide +kernel)) (plain_ofList (by decide +kernel)))

def firstPatchEvent : SseEvent :=
  dataEvent .lf (patchedCallText "a" "")
    (plain_patchedCallText (plain_ofList (by decide +kernel)) (plain_ofList (by decide +kernel)))

def lastPatchEvent : SseEvent :=
  dataEvent .lf (patchedCallText "b" ",\"finishReason\":\"STOP\"")
    (plain_patchedCallText (plain_ofList (by decide +kernel)) (plain_ofList (by decide +kernel)))

theorem wholeCall_reads : wholeCallEvent.Reads callLibraries wholeCall :=
  reads_dataEvent _ (head?_chunkText _) ((Json.Serde.fromStr_ofTexts _ _).trans (by decide +kernel))

theorem firstPatch_reads : firstPatchEvent.Reads callLibraries (patchedCall "a" []) :=
  reads_dataEvent _ (head?_chunkText _) ((Json.Serde.fromStr_ofTexts _ _).trans (by decide +kernel))

theorem lastPatch_reads :
    lastPatchEvent.Reads callLibraries (patchedCall "b" [("finishReason", .string "STOP")]) :=
  reads_dataEvent _ (head?_chunkText _) ((Json.Serde.fromStr_ofTexts _ _).trans (by decide +kernel))

/-- A stream of events, each in a chunk of its own. -/
def called (events : List SseEvent) : GeminiStream :=
  (((events.map SseEvent.bytes).foldl (GeminiStreamBridge.push callLibraries) (.new callRequest)).finish
    callLibraries).core

/-- The stream handles the values of the events. -/
theorem called_eq {events : List SseEvent} {values : List Json} (hlines : ∀ event ∈ events, event.lineEnd = .lf)
    (hreads : List.Forall₂ (fun event value => event.Reads callLibraries value) events values) :
    called events = (GeminiStreamBridge.finish callLibraries
      { core := values.foldl (fun stream value =>
          if stream.terminal then stream else stream.handleValue callLibraries value) (.new callRequest) }).core := by
  rw [called, push_reads callRequest hlines hreads]

theorem callLibraries_prints (fields : Json.Fields) :
    callLibraries.serde.toString (.object fields) ≠ "" := by
  intro hempty
  have hchars := Json.toList_print (.object fields)
  have hprint : callLibraries.serde.toString (.object fields) = (Json.object fields).print := rfl
  rw [← hprint, hempty, Json.printChars] at hchars
  exact nomatch hchars

theorem patched_called :
    (called [firstPatchEvent, lastPatchEvent]).completed.isSome = true ∧
    (0, "\x7b\"a\":1,\"b\":1\x7d") ∈
      (called [firstPatchEvent, lastPatchEvent]).output.filterMap Frame.argumentsDone ∧
    deltasAt 0 (called [firstPatchEvent, lastPatchEvent]).output =
      ["\x7b\"a\":1\x7d", "\x7b\"a\":1,\"b\":1\x7d"] := by
  rw [called_eq (by simp; decide) (.cons firstPatch_reads (.cons lastPatch_reads .nil))]
  decide +kernel

/-- The two patches give two texts of the arguments, and the client has both. -/
theorem patched_arguments_sent_twice :
    (called [firstPatchEvent, lastPatchEvent]).completed.isSome = true ∧
    ¬ Reassembles callLibraries (called [firstPatchEvent, lastPatchEvent]).output := by
  obtain ⟨hcompleted, hdone, hdeltas⟩ := patched_called
  refine ⟨hcompleted, fun h => ?_⟩
  rw [Reassembles] at h
  obtain hjoin | ⟨hnothing, -⟩ := h 0 _ hdone
  · rw [hdeltas] at hjoin
    exact absurd hjoin (by decide +kernel)
  · rw [hdeltas] at hnothing
    exact nomatch hnothing

theorem called_whole_completes : (called [wholeCallEvent]).completed.isSome = true := by
  rw [called_eq (by simp; decide) (.cons wholeCall_reads .nil)]
  decide +kernel

theorem arguments_reassemble_whole :
    Reassembles callLibraries (called [wholeCallEvent]).output ↔
      GeminiStream.Steady callLibraries (.new callRequest)
        (framesOf eventEnd ([wholeCallEvent].map SseEvent.bytes)) := by
  have hcompleted := called_whole_completes
  rw [called] at hcompleted ⊢
  exact arguments_reassemble_iff callLibraries callLibraries_prints callRequest
    ([wholeCallEvent].map SseEvent.bytes) hcompleted

end Zenith.Protocol
