import Mathlib
import Zenith.Lib.Framing
import Zenith.Lib.Json
import Zenith.Lib.Text

/-!
# Server-sent events

The byte level of the streams, from `protocol/sse.rs` and the end of `protocol/adapter/stream.rs`:
where an event ends in a buffer, and what data its lines carry.
-/

namespace Zenith.Protocol

open Zenith.Bytes Zenith.Framing

def lf : UInt8 := 10

def cr : UInt8 := 13

/-- The end of the first event in a buffer. The whole buffer is searched for an empty line after a
line feed before it is searched for one after a carriage return and a line feed. -/
def eventEnd (bytes : List UInt8) : Option Nat :=
  ((findInfix [lf, lf] bytes).map (· + 2)).or ((findInfix [cr, lf, cr, lf] bytes).map (· + 4))

/-- `slice::strip_prefix`. -/
def stripPrefix? (lead line : List UInt8) : Option (List UInt8) :=
  if lead <+: line then some (line.drop lead.length) else none

/-- The lines of an event, without their ends. -/
def eventLines (event : List UInt8) : List (List UInt8) :=
  (event.splitOn lf).map fun line => if line.getLast? = some cr then line.dropLast else line

/-- What stands after `data:` in the lines of an event that have it. -/
def dataFields (event : List UInt8) : List (List UInt8) :=
  (eventLines event).filterMap (stripPrefix? (utf8 "data:"))

/-- `u8::is_ascii_whitespace`. -/
def isAsciiWhitespace (byte : UInt8) : Bool :=
  byte = 32 || byte = 9 || byte = 10 || byte = 12 || byte = 13

/-- `slice::trim_ascii`. -/
def trimAscii (bytes : List UInt8) : List UInt8 :=
  ((bytes.dropWhile isAsciiWhitespace).reverse.dropWhile isAsciiWhitespace).reverse

/-- The data of an event: its data lines, without one leading space each. A line feed stands before
a line only if there is data before it. -/
def eventData (event : List UInt8) : List UInt8 :=
  (dataFields event).foldl (fun data value =>
    let value := (stripPrefix? (utf8 " ") value).getD value
    if data = [] then value else data ++ lf :: value) []

def parseSseData (serde : Json.Serde) (event : List UInt8) : Option Json :=
  if eventData event = [] then none else serde.fromSlice (eventData event)

def sseEventHasData (event : List UInt8) : Bool :=
  (dataFields event).any fun value => value.any fun byte => !isAsciiWhitespace byte

def sseDone (event : List UInt8) : Bool :=
  (dataFields event).any fun value => trimAscii value = utf8 "[DONE]"

/-- The part of a text that is new, when the text repeats what came before. -/
def incrementalDelta (previous incoming : String) : String :=
  if Text.startsWith incoming previous then
    String.ofList (incoming.toList.drop previous.toList.length)
  else incoming

/-- Metadata of the upstream that does not change the output. -/
def isIgnorableMetadataEvent (kind : String) : Bool :=
  kind = "message_metadata" || kind = "content_block_metadata" || kind = "citation" ||
    kind = "message_citation" || Text.endsWith kind "_metadata" || Text.endsWith kind "_citation"

end Zenith.Protocol
