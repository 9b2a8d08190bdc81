import Mathlib

/-!
# Lines with their ends

A file as a list of lines, each with the newline that ends it; the last line may have none. Facts about
files of lines are proved by `lines_induction`: a file is empty, or a line and the rest, or a last line.
-/

namespace Zenith.Lines

variable {α : Type*} [DecidableEq α]

/-- `split_inclusive`: every line keeps its end. -/
def splitInclusive (newline : α) : List α → List (List α)
  | [] => []
  | byte :: bytes =>
    if byte = newline then [byte] :: splitInclusive newline bytes
    else
      match splitInclusive newline bytes with
      | [] => [[byte]]
      | line :: lines => (byte :: line) :: lines

variable {newline : α}

theorem splitInclusive_of_not_mem {body : List α} (hbody : newline ∉ body) (hne : body ≠ []) :
    splitInclusive newline body = [body] := by
  induction body with
  | nil => exact absurd rfl hne
  | cons byte body ih =>
    rw [List.mem_cons, not_or] at hbody
    rw [splitInclusive, if_neg (Ne.symm hbody.1)]
    cases body with
    | nil => rfl
    | cons next body => rw [ih hbody.2 (List.cons_ne_nil _ _)]

theorem splitInclusive_append {body : List α} (hbody : newline ∉ body) (rest : List α) :
    splitInclusive newline (body ++ newline :: rest) =
      (body ++ [newline]) :: splitInclusive newline rest := by
  induction body with
  | nil => rw [List.nil_append, splitInclusive, if_pos rfl, List.nil_append]
  | cons byte body ih =>
    rw [List.mem_cons, not_or] at hbody
    rw [List.cons_append, splitInclusive, if_neg (Ne.symm hbody.1), ih hbody.2]
    rfl

/-- Files line by line. -/
@[elab_as_elim]
theorem lines_induction {motive : List α → Prop} (newline : α) (nil : motive [])
    (line : ∀ body rest, newline ∉ body → motive rest → motive (body ++ newline :: rest))
    (last : ∀ body, newline ∉ body → body ≠ [] → motive body) (bytes : List α) : motive bytes := by
  have hlines : ∀ bytes body : List α, newline ∉ body → motive (body ++ bytes) := by
    intro bytes
    induction bytes with
    | nil =>
      intro body hbody
      rw [List.append_nil]
      by_cases hne : body = []
      · rwa [hne]
      · exact last body hbody hne
    | cons byte bytes ih =>
      intro body hbody
      by_cases hend : byte = newline
      · rw [hend]
        exact line body bytes hbody (ih [] List.not_mem_nil)
      · have hbody' : newline ∉ body ++ [byte] := by
          rw [List.mem_append, List.mem_singleton]
          exact fun h => h.elim hbody fun heq => hend heq.symm
        have hrest := ih _ hbody'
        rwa [List.append_assoc] at hrest
  exact hlines bytes [] List.not_mem_nil

theorem flatten_splitInclusive (bytes : List α) : (splitInclusive newline bytes).flatten = bytes := by
  induction bytes using lines_induction newline with
  | nil => rfl
  | line body rest hbody ih =>
    rw [splitInclusive_append hbody, List.flatten_cons, ih, List.append_assoc]
    rfl
  | last body hbody hne => rw [splitInclusive_of_not_mem hbody hne, List.flatten_singleton]

/-- What is done to the lines leaves each of them a line. -/
structure KeepsLines (newline : α) (f : List α → List α) : Prop where
  line : ∀ body, newline ∉ body → ∃ body', newline ∉ body' ∧ f (body ++ [newline]) = body' ++ [newline]
  last : ∀ body, newline ∉ body → body ≠ [] → newline ∉ f body ∧ f body ≠ []

/-- Lines that are changed one by one stay the lines of the file. -/
theorem KeepsLines.splitInclusive_flatMap {f : List α → List α} (h : KeepsLines newline f)
    (bytes : List α) :
    splitInclusive newline ((splitInclusive newline bytes).flatMap f) =
      (splitInclusive newline bytes).map f := by
  induction bytes using lines_induction newline with
  | nil => rfl
  | line body rest hbody ih =>
    obtain ⟨body', hbody', hline⟩ := h.line body hbody
    rw [splitInclusive_append hbody, List.flatMap_cons, List.map_cons, hline, List.append_assoc,
      List.singleton_append, splitInclusive_append hbody', ih]
  | last body hbody hne =>
    obtain ⟨hlast, hsome⟩ := h.last body hbody hne
    rw [splitInclusive_of_not_mem hbody hne, List.flatMap_singleton, splitInclusive_of_not_mem hlast hsome]
    rfl

end Zenith.Lines
