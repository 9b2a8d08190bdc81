import Mathlib

/-!
# Reading an event stream

The `text/event-stream` format as a client reads it, byte by byte: lines end with a line feed, a
carriage return, or both; an empty line ends an event; a line that starts with a colon is a comment.
An event is the list of its other lines, and an event without lines is none.

`read` is a fold, so what follows from a part of the bytes stays true of the whole
(`eventsOf_append`). `Clean` readers are between two events: that is where a comment changes nothing
(`read_comment`) and where a written event is read back (`read_event`).
-/

namespace Zenith.EventStream

def newline : UInt8 := 10

def carriageReturn : UInt8 := 13

def colon : UInt8 := 58

structure Reader where
  events : List (List (List UInt8)) := []
  /-- The lines of the event that is being read. -/
  lines : List (List UInt8) := []
  line : List UInt8 := []
  /-- A line feed now would belong to the line that has ended. -/
  afterReturn : Bool := false
deriving DecidableEq

namespace Reader

def endLine (r : Reader) : Reader :=
  if r.line = [] then
    { r with events := if r.lines = [] then r.events else r.events ++ [r.lines], lines := [] }
  else if r.line.head? = some colon then { r with line := [] }
  else { r with lines := r.lines ++ [r.line], line := [] }

def step (r : Reader) (byte : UInt8) : Reader :=
  if byte = newline then
    if r.afterReturn then { r with afterReturn := false } else r.endLine
  else if byte = carriageReturn then { r.endLine with afterReturn := true }
  else { r with line := r.line ++ [byte], afterReturn := false }

end Reader

def read (r : Reader) (bytes : List UInt8) : Reader := bytes.foldl Reader.step r

def eventsOf (bytes : List UInt8) : List (List (List UInt8)) := (read {} bytes).events

/-- A reader between two events. -/
structure Clean (r : Reader) : Prop where
  lines : r.lines = []
  line : r.line = []
  afterReturn : r.afterReturn = false

section
variable {r : Reader}

theorem read_append (r : Reader) (a b : List UInt8) : read r (a ++ b) = read (read r a) b :=
  List.foldl_append

theorem read_cons (r : Reader) (byte : UInt8) (bytes : List UInt8) :
    read r (byte :: bytes) = read (r.step byte) bytes := rfl

/-! ## Events stay -/

theorem endLine_events (r : Reader) : r.events <+: r.endLine.events := by
  unfold Reader.endLine
  split
  next =>
    show r.events <+: if r.lines = [] then r.events else r.events ++ [r.lines]
    split
    next => exact List.prefix_rfl
    next => exact List.prefix_append _ _
  next => split <;> exact List.prefix_rfl

theorem step_events (r : Reader) (byte : UInt8) : r.events <+: (r.step byte).events := by
  unfold Reader.step
  split
  next =>
    split
    next => exact List.prefix_rfl
    next => exact endLine_events r
  next =>
    split
    next => exact endLine_events r
    next => exact List.prefix_rfl

theorem read_events (r : Reader) (bytes : List UInt8) : r.events <+: (read r bytes).events := by
  induction bytes generalizing r with
  | nil => exact List.prefix_rfl
  | cons byte bytes ih => exact (step_events r byte).trans (ih (r.step byte))

theorem eventsOf_append (a b : List UInt8) : eventsOf a <+: eventsOf (a ++ b) := by
  rw [eventsOf, eventsOf, read_append]
  exact read_events _ _

/-! ## Between two events -/

theorem endLine_line (r : Reader) : r.endLine.line = [] := by
  unfold Reader.endLine
  split
  next h => exact h
  next => split <;> rfl

theorem endLine_lines (h : r.line = []) : r.endLine.lines = [] := by
  rw [Reader.endLine, if_pos h]

theorem endLine_afterReturn (r : Reader) : r.endLine.afterReturn = r.afterReturn := by
  unfold Reader.endLine
  split
  next => rfl
  next => split <;> rfl

theorem clean_start : Clean {} := ⟨rfl, rfl, rfl⟩

/-- An empty line after a line feed. -/
theorem clean_of_newlines (r : Reader) (hline : r.afterReturn = true → r.line = []) :
    Clean (read r [newline, newline]) := by
  have hfirst : (r.step newline).line = [] ∧ (r.step newline).afterReturn = false := by
    rw [Reader.step, if_pos rfl]
    by_cases h : r.afterReturn = true
    · rw [if_pos h]
      exact ⟨hline h, rfl⟩
    · rw [if_neg h]
      exact ⟨endLine_line r, (endLine_afterReturn r).trans (Bool.eq_false_of_not_eq_true h)⟩
  have hread : read r [newline, newline] = (r.step newline).endLine := by
    show (r.step newline).step newline = _
    rw [Reader.step, if_pos rfl, hfirst.2, if_neg Bool.false_ne_true]
  rw [hread]
  exact ⟨endLine_lines hfirst.1, endLine_line _, (endLine_afterReturn _).trans hfirst.2⟩

/-- An empty line after a carriage return and a line feed. -/
theorem clean_of_returns (r : Reader) :
    Clean (read r [carriageReturn, newline, carriageReturn, newline]) := by
  have hread : read r [carriageReturn, newline, carriageReturn, newline] =
      { ({ r.endLine with afterReturn := false } : Reader).endLine with afterReturn := false } := rfl
  have hlines : ({ r.endLine with afterReturn := false } : Reader).endLine.lines = [] :=
    endLine_lines (endLine_line r)
  rw [hread]
  exact ⟨hlines, endLine_line _, rfl⟩

/-- A reader whose last byte was a carriage return has no line. -/
theorem line_of_afterReturn (bytes : List UInt8) :
    (read {} bytes).afterReturn = true → (read {} bytes).line = [] := by
  induction bytes using List.reverseRecOn with
  | nil => exact nofun
  | append_singleton bytes byte ih =>
    rw [read_append]
    generalize read {} bytes = r at ih
    show (r.step byte).afterReturn = true → (r.step byte).line = []
    unfold Reader.step
    split
    next =>
      split
      next h => exact nofun
      next h =>
        intro hreturn
        rw [endLine_afterReturn] at hreturn
        exact absurd hreturn h
    next =>
      split
      next => exact fun _ => endLine_line r
      next => exact nofun

/-! ## Whole lines -/

/-- A text without line ends. -/
def Plain (text : List UInt8) : Prop := ∀ byte ∈ text, byte ≠ newline ∧ byte ≠ carriageReturn

instance (text : List UInt8) : Decidable (Plain text) :=
  inferInstanceAs (Decidable (∀ byte ∈ text, byte ≠ newline ∧ byte ≠ carriageReturn))

/-- A closed text is decided byte for byte. -/
theorem plain_of_all {text : List UInt8}
    (h : (text.all fun byte => byte != newline && byte != carriageReturn) = true) : Plain text := by
  simpa [Plain] using h

theorem Plain.append {a b : List UInt8} (ha : Plain a) (hb : Plain b) : Plain (a ++ b) := by
  intro byte hbyte
  rcases List.mem_append.mp hbyte with h | h
  · exact ha byte h
  · exact hb byte h

variable {text : List UInt8}

theorem read_plain (h : Plain text) (hreturn : r.afterReturn = false) :
    read r text = { r with line := r.line ++ text } := by
  induction text generalizing r with
  | nil => rw [List.append_nil]; rfl
  | cons byte text ih =>
    have hbyte := h byte List.mem_cons_self
    have hstep : r.step byte = { r with line := r.line ++ [byte] } := by
      rw [Reader.step, if_neg hbyte.1, if_neg hbyte.2, hreturn.symm]
    rw [read_cons, hstep, ih (r := { r with line := r.line ++ [byte] })
      (fun b hb => h b (List.mem_cons_of_mem _ hb)) hreturn]
    simp

/-- A line and its line feed. -/
theorem read_line (h : Plain text) (hline : r.line = [])
    (hreturn : r.afterReturn = false) :
    read r (text ++ [newline]) = ({ r with line := text } : Reader).endLine := by
  rw [read_append, read_plain h hreturn, hline, List.nil_append]
  show Reader.step _ newline = _
  rw [Reader.step, if_pos rfl, if_neg]
  rw [hreturn]
  exact Bool.false_ne_true

/-- A comment and an empty line between two events change nothing. -/
theorem read_comment (hclean : Clean r) (h : Plain (colon :: text)) :
    read r (colon :: text ++ [newline, newline]) = r := by
  have hcomment : ({ r with line := colon :: text } : Reader).endLine = r := by
    rw [Reader.endLine, if_neg (List.cons_ne_nil _ _), if_pos (by rfl)]
    show ({ r with line := [] } : Reader) = r
    rw [← hclean.line]
  have hempty : r.endLine = r := by
    obtain ⟨hlines, hline, -⟩ := hclean
    rw [Reader.endLine, if_pos hline, if_pos hlines, ← hlines]
  rw [show colon :: text ++ [newline, newline] = (colon :: text ++ [newline]) ++ [newline] by simp,
    read_append, read_line h hclean.line hclean.afterReturn, hcomment]
  show r.step newline = r
  rw [Reader.step, if_pos rfl, hclean.afterReturn, if_neg Bool.false_ne_true, hempty]

/-- The bytes of an event. -/
def written (lines : List (List UInt8)) : List UInt8 :=
  (lines.map fun line => line ++ [newline]).flatten ++ [newline]

/-- A field line: it is not empty and no comment. -/
def Field (line : List UInt8) : Prop := Plain line ∧ line ≠ [] ∧ line.head? ≠ some colon

theorem read_fields {lines : List (List UInt8)} (h : ∀ line ∈ lines, Field line)
    (hline : r.line = []) (hreturn : r.afterReturn = false) :
    read r (lines.map fun line => line ++ [newline]).flatten =
      { r with lines := r.lines ++ lines } := by
  induction lines generalizing r with
  | nil => rw [List.append_nil]; rfl
  | cons line lines ih =>
    obtain ⟨hplain, hne, hfield⟩ := h line List.mem_cons_self
    have hend : ({ r with line := line } : Reader).endLine =
        { r with lines := r.lines ++ [line] } := by
      rw [Reader.endLine, if_neg hne, if_neg hfield]
      show ({ r with lines := r.lines ++ [line], line := [] } : Reader) = _
      rw [← hline]
    rw [List.map_cons, List.flatten_cons, read_append, read_line hplain hline hreturn, hend,
      ih (r := { r with lines := r.lines ++ [line] })
        (fun l hl => h l (List.mem_cons_of_mem _ hl)) hline hreturn]
    simp

/-- An event that is written between two events is read back. -/
theorem read_event (hclean : Clean r) {lines : List (List UInt8)} (h : ∀ line ∈ lines, Field line)
    (hne : lines ≠ []) : read r (written lines) = { r with events := r.events ++ [lines] } := by
  rw [written, read_append, read_fields h hclean.line hclean.afterReturn, hclean.lines]
  show Reader.step _ newline = _
  rw [Reader.step, if_pos rfl, if_neg (by rw [hclean.afterReturn]; exact Bool.false_ne_true),
    Reader.endLine, if_pos hclean.line]
  simp [hne]

end

end Zenith.EventStream
