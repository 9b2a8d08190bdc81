import Mathlib
import Zenith.Lib.Rows
import Zenith.Lib.Tables

/-!
# Rollups

A rollup is a row of sums that is added to in place: for a key, one 64-bit column for each counter. An
aggregate is what is added to it, for one item or for the group of a query. A `SUM` beyond 64 bits fails; an
addition in place beyond 64 bits leaves a floating-point number in the column, of which `Cell.real` only says
that it is one.

`rollUp` is the insertion of a grouped query. A cell that held the sum of some items holds the sum of more of
them after it (`rollUp_eq_ok`), or a floating-point number.
-/

namespace Zenith.Rollups

open Zenith.Rows Zenith.Tables

/-- A stored counter: `i64`, and never negative. -/
abbrev Stored := Fin (2 ^ 63)

def maxInteger : Nat := 2 ^ 63 - 1

/-- What one row holds in an `INTEGER` column that is added to in place. -/
inductive Cell
  | integer (value : Int)
  | real
deriving DecidableEq, Repr

/-- A 64-bit integer. -/
def Fits (value : Int) : Prop := -2 ^ 63 ≤ value ∧ value < 2 ^ 63

instance (value : Int) : Decidable (Fits value) := inferInstanceAs (Decidable (_ ∧ _))

def Cell.add : Cell → Cell → Cell
  | .integer a, .integer b => if Fits (a + b) then .integer (a + b) else .real
  | _, _ => .real

structure Row (κ γ : Type) where
  key : κ
  cell : γ → Cell

structure Aggregate (κ γ : Type) where
  key : κ
  value : γ → Nat

/-- `COALESCE(SUM(…), 0)`, and `COUNT(…)` as the sum of its ones. -/
def sumOf (values : List (Option Nat)) : Nat := (values.map fun value => value.getD 0).sum

section
variable {κ γ ρ ε : Type} [DecidableEq κ]

/-- `INSERT … ON CONFLICT(key) DO UPDATE SET column = column + excluded.column`. -/
def applyAggregateDelta (rollups : List (Row κ γ)) (aggregate : Aggregate κ γ) (multiplier : Int) : List (Row κ γ) :=
  upsert Row.key
    (fun row excluded => { row with cell := fun column => (row.cell column).add (excluded.cell column) })
    { key := aggregate.key
      cell := fun column => .integer (aggregate.value column * multiplier) } rollups

section
variable [Fintype γ] (overflow : ε) (key : ρ → κ) (column : ρ → γ → Option Nat)

/-- The aggregate of a group whose sums do not overflow. -/
def aggregateGroup (group : κ × List ρ) : Except ε (Aggregate κ γ) :=
  if ∀ c, sumOf (group.2.map fun row => column row c) ≤ maxInteger then
    .ok ⟨group.1, fun c => sumOf (group.2.map fun row => column row c)⟩
  else .error overflow

/-- `INSERT INTO … SELECT … GROUP BY … ON CONFLICT … DO UPDATE`. -/
def rollUp (rollups : List (Row κ γ)) (rows : List ρ) : Except ε (List (Row κ γ)) := do
  let aggregates ← (groupRows key rows).mapM (aggregateGroup overflow column)
  return aggregates.foldl (applyAggregateDelta · · 1) rollups

end

/-! ## Reading -/

/-- A stored number as `u64`. -/
def Cell.count : Cell → Nat
  | .integer value => value.toNat
  | .real => 0

def Row.count (row : Row κ γ) (column : γ) : Nat := (row.cell column).count

def Row.aggregate (row : Row κ γ) : Aggregate κ γ := ⟨row.key, row.count⟩

section
variable (invalid : γ → ε)

/-- The integer of a column. A floating-point number has the wrong type. -/
def Row.readInteger (row : Row κ γ) (column : γ) : Except ε Nat :=
  match row.cell column with
  | .integer value => .ok value.toNat
  | .real => .error (invalid column)

def Row.read (columns : List γ) (row : Row κ γ) : Except ε (Aggregate κ γ) := do
  let _ ← columns.mapM (row.readInteger invalid)
  return row.aggregate

variable {invalid} {row : Row κ γ} {columns : List γ}

omit [DecidableEq κ] in
theorem mapM_readInteger : (∃ values, columns.mapM (row.readInteger invalid) = .ok values) ↔
    ∀ column ∈ columns, row.cell column ≠ .real := by
  induction columns with
  | nil => exact iff_of_true ⟨[], rfl⟩ fun column hmem => nomatch hmem
  | cons first columns ih =>
    rw [List.mapM_cons, List.forall_mem_cons, ← ih]
    constructor
    · rintro ⟨values, h⟩
      obtain ⟨value, hvalue, h⟩ := bind_eq_ok.mp h
      obtain ⟨rest, hrest, -⟩ := bind_eq_ok.mp h
      refine ⟨fun hreal => ?_, rest, hrest⟩
      rw [Row.readInteger, hreal] at hvalue
      exact nomatch hvalue
    · rintro ⟨hfirst, rest, hrest⟩
      cases hcell : row.cell first with
      | real => exact absurd hcell hfirst
      | integer value =>
        refine ⟨value.toNat :: rest, bind_eq_ok.mpr ⟨value.toNat, ?_, bind_eq_ok.mpr ⟨rest, hrest, rfl⟩⟩⟩
        rw [Row.readInteger, hcell]

omit [DecidableEq κ] in
theorem read_eq_ok {aggregate : Aggregate κ γ} : row.read invalid columns = .ok aggregate ↔
    aggregate = row.aggregate ∧ ∀ column ∈ columns, row.cell column ≠ .real := by
  rw [Row.read, ← @mapM_readInteger κ γ ε invalid]
  constructor
  · intro h
    obtain ⟨values, hvalues, h⟩ := bind_eq_ok.mp h
    exact ⟨(Except.ok.inj h).symm, values, hvalues⟩
  · rintro ⟨rfl, values, hvalues⟩
    exact bind_eq_ok.mpr ⟨values, hvalues, rfl⟩

omit [DecidableEq κ] in
theorem mapM_read {rollups : List (Row κ γ)} {rows : List (Aggregate κ γ)} :
    rollups.mapM (Row.read invalid columns) = .ok rows ↔
      rows = rollups.map Row.aggregate ∧ ∀ row ∈ rollups, ∀ column ∈ columns, row.cell column ≠ .real :=
  mapM_eq_ok fun _ _ => read_eq_ok

end

/-! ## Totals -/

/-- What the items add to a column of a key. -/
def total {α : Type} (of : α → Aggregate κ γ) (items : List α) (key : κ) (column : γ) : Nat :=
  (items.map fun item => if (of item).key = key then (of item).value column else 0).sum

section
variable {α : Type} {of : α → Aggregate κ γ}

@[simp] theorem total_nil (key : κ) (column : γ) : total of [] key column = 0 := rfl

@[simp] theorem total_cons (item : α) (items : List α) (key : κ) (column : γ) :
    total of (item :: items) key column =
      (if (of item).key = key then (of item).value column else 0) + total of items key column := List.sum_cons ..

@[simp] theorem total_append (front back : List α) (key : κ) (column : γ) :
    total of (front ++ back) key column = total of front key column + total of back key column := by
  simp [total]

theorem total_perm {front back : List α} (h : front.Perm back) : total of front = total of back := by
  funext key column
  exact (h.map _).sum_eq

theorem total_map {β : Type} (f : β → α) (items : List β) : total of (items.map f) = total (fun item => of (f item)) items := by
  funext key column
  rw [total, List.map_map]
  rfl

theorem total_of_absent {items : List α} {key : κ} (h : key ∉ items.map fun item => (of item).key) (column : γ) :
    total of items key column = 0 := by
  induction items with
  | nil => rfl
  | cons item items ih =>
    rw [List.map_cons, List.mem_cons, not_or] at h
    rw [total_cons, if_neg (Ne.symm h.1), ih h.2]

/-- Sums of counters that are zero without samples are zero without samples. -/
theorem total_eq_zero {items : List α} {key : κ} {samples tokens : γ}
    (hitem : ∀ item ∈ items, (of item).value samples = 0 → (of item).value tokens = 0)
    (h : total of items key samples = 0) : total of items key tokens = 0 := by
  induction items with
  | nil => rfl
  | cons item items ih =>
    obtain ⟨hfirst, hrest⟩ := List.forall_mem_cons.mp hitem
    rw [total_cons, Nat.add_eq_zero_iff] at h ⊢
    refine ⟨?_, ih hrest h.2⟩
    have hsamples := h.1
    split at hsamples
    · rw [if_pos ‹_›]
      exact hfirst hsamples
    · rw [if_neg ‹_›]

/-- No total is beyond 64 bits. -/
def InRange (of : α → Aggregate κ γ) (items : List α) : Prop := ∀ key column, total of items key column ≤ maxInteger

theorem InRange.mono {items items' : List α} (h : InRange of items')
    (hle : ∀ key column, total of items key column ≤ total of items' key column) : InRange of items :=
  fun key column => Nat.le_trans (hle key column) (h key column)

theorem inRange_perm {items items' : List α} (h : items.Perm items') (hrange : InRange of items') :
    InRange of items := by
  rw [InRange, total_perm h]
  exact hrange

end

theorem fits_of_le {value : Nat} (h : value ≤ maxInteger) : Fits value := by
  unfold maxInteger at h
  constructor <;> omega

/-! ## Additions -/

/-- A column of the rollup of a key, which is zero where there is none. -/
def cellAt (rollups : List (Row κ γ)) (key : κ) (column : γ) : Cell :=
  match lookupKey Row.key key rollups with
  | some row => row.cell column
  | none => .integer 0

/-- A cell after `amount` was added: the sum, or a floating-point number where that is no 64-bit integer. -/
inductive Added (amount : Int) : Cell → Cell → Prop
  | sum (a : Int) : Added amount (.integer a) (.integer (a + amount))
  | overflow (a : Int) (h : ¬Fits (a + amount)) : Added amount (.integer a) .real
  | real : Added amount .real .real

theorem Added.of_integer {amount a : Int} {cell : Cell} (h : Added amount (.integer a) cell) :
    cell = .integer (a + amount) ∨ (cell = .real ∧ ¬Fits (a + amount)) := by
  cases h with
  | sum => exact .inl rfl
  | overflow _ h => exact .inr ⟨rfl, h⟩

theorem Added.add (cell : Cell) (amount : Int) : Added amount cell (cell.add (.integer amount)) := by
  cases cell with
  | real => exact .real
  | integer a =>
    rw [Cell.add]
    split
    · exact .sum a
    · exact .overflow a ‹_›

/-- The cell is the integer `value`, or, where `lost` allows it, a floating-point number. -/
def Holds (lost : Prop) (cell : Cell) (value : Int) : Prop := cell = .integer value ∨ (lost ∧ cell = .real)

theorem Holds.added {lost : Prop} {amount value : Int} {cell cell' : Cell} (h : Holds lost cell value)
    (hadded : Added amount cell cell') (hfits : lost ∨ Fits (value + amount)) : Holds lost cell' (value + amount) := by
  rcases h with rfl | ⟨hlost, rfl⟩
  · rcases hadded.of_integer with rfl | ⟨rfl, hover⟩
    · exact .inl rfl
    · exact .inr ⟨hfits.resolve_right hover, rfl⟩
  · cases hadded with
    | real => exact .inr ⟨hlost, rfl⟩

theorem Holds.exact {cell : Cell} {value : Int} (h : Holds False cell value) : cell = .integer value :=
  h.resolve_right And.left

/-- The keys of the rollups are distinct, as their primary key has it. -/
def Keyed (rollups : List (Row κ γ)) : Prop := (rollups.map Row.key).Nodup

section
variable {rollups : List (Row κ γ)}

theorem cellAt_of_mem (h : Keyed rollups) {row : Row κ γ} (hrow : row ∈ rollups) (column : γ) :
    cellAt rollups row.key column = row.cell column := by
  rw [cellAt, lookupKey_of_mem h hrow]

/-- A deletion of other rollups. -/
theorem cellAt_filter {p : Row κ γ → Bool} {key : κ} (hp : ∀ row, row.key = key → p row = true) :
    cellAt (rollups.filter p) key = cellAt rollups key := by
  funext column
  rw [cellAt, cellAt, lookupKey_filter hp]

theorem keyed_applyAggregateDelta (h : Keyed rollups) (aggregate : Aggregate κ γ) (multiplier : Int) :
    Keyed (applyAggregateDelta rollups aggregate multiplier) :=
  nodup_upsert (fun _ hkey => hkey) h

theorem cellAt_applyAggregateDelta (rollups : List (Row κ γ)) (aggregate : Aggregate κ γ) (multiplier : Int)
    (column : γ) : Added (aggregate.value column * multiplier) (cellAt rollups aggregate.key column)
      (cellAt (applyAggregateDelta rollups aggregate multiplier) aggregate.key column) := by
  rw [applyAggregateDelta, cellAt, cellAt, lookupKey_upsert fun _ hkey => hkey]
  dsimp only
  rw [if_pos rfl, merged]
  dsimp only
  cases lookupKey Row.key aggregate.key rollups with
  | none =>
    have h : Added (aggregate.value column * multiplier) (.integer 0)
        (.integer (0 + aggregate.value column * multiplier)) := .sum 0
    rwa [Int.zero_add] at h
  | some row => exact .add _ _

theorem cellAt_applyAggregateDelta_of_ne (rollups : List (Row κ γ)) {aggregate : Aggregate κ γ}
    (multiplier : Int) {key : κ} (hkey : aggregate.key ≠ key) :
    cellAt (applyAggregateDelta rollups aggregate multiplier) key = cellAt rollups key := by
  funext column
  rw [applyAggregateDelta, cellAt, cellAt, lookupKey_upsert fun _ hkey => hkey]
  dsimp only
  rw [if_neg hkey.symm]

theorem holds_applyAggregateDelta {lost : Prop} {value : κ → γ → Int} (aggregate : Aggregate κ γ) (multiplier : Int)
    (h : ∀ key column, Holds lost (cellAt rollups key column) (value key column))
    (hfits : lost ∨ ∀ column, Fits (value aggregate.key column + aggregate.value column * multiplier))
    (key : κ) (column : γ) : Holds lost (cellAt (applyAggregateDelta rollups aggregate multiplier) key column)
      (value key column + if aggregate.key = key then aggregate.value column * multiplier else 0) := by
  by_cases hkey : aggregate.key = key
  · subst hkey
    rw [if_pos rfl]
    exact (h _ column).added (cellAt_applyAggregateDelta ..) (hfits.imp id fun hfits => hfits column)
  · rw [if_neg hkey, Int.add_zero, cellAt_applyAggregateDelta_of_ne _ _ hkey]
    exact h key column

theorem keyed_foldl (aggregates : List (Aggregate κ γ)) (h : Keyed rollups) :
    Keyed (aggregates.foldl (applyAggregateDelta · · 1) rollups) := by
  induction aggregates generalizing rollups with
  | nil => exact h
  | cons aggregate aggregates ih => exact ih (keyed_applyAggregateDelta h aggregate 1)

theorem cellAt_foldl_of_absent {aggregates : List (Aggregate κ γ)} {key : κ}
    (h : key ∉ aggregates.map Aggregate.key) :
    cellAt (aggregates.foldl (applyAggregateDelta · · 1) rollups) key = cellAt rollups key := by
  induction aggregates generalizing rollups with
  | nil => rfl
  | cons aggregate aggregates ih =>
    rw [List.map_cons, List.mem_cons, not_or] at h
    rw [List.foldl_cons, ih h.2, cellAt_applyAggregateDelta_of_ne _ _ (Ne.symm h.1)]

/-- Aggregates of different keys are added to different rollups. -/
theorem cellAt_foldl {aggregates : List (Aggregate κ γ)} (hnd : (aggregates.map Aggregate.key).Nodup)
    {aggregate : Aggregate κ γ} (hmem : aggregate ∈ aggregates) (column : γ) :
    Added (aggregate.value column) (cellAt rollups aggregate.key column)
      (cellAt (aggregates.foldl (applyAggregateDelta · · 1) rollups) aggregate.key column) := by
  induction aggregates generalizing rollups with
  | nil => exact nomatch hmem
  | cons first aggregates ih =>
    rw [List.map_cons, List.nodup_cons] at hnd
    rw [List.foldl_cons]
    rcases List.mem_cons.mp hmem with rfl | hmem
    · rw [cellAt_foldl_of_absent hnd.1]
      have h := cellAt_applyAggregateDelta rollups aggregate 1 column
      rwa [Int.mul_one] at h
    · have hne : first.key ≠ aggregate.key := fun heq => hnd.1 (heq ▸ List.mem_map_of_mem hmem)
      have h := @ih (applyAggregateDelta rollups first 1) hnd.2 hmem
      rwa [cellAt_applyAggregateDelta_of_ne _ _ hne] at h

theorem mem_keys_applyAggregateDelta {aggregate : Aggregate κ γ} {multiplier : Int} {key : κ} :
    key ∈ (applyAggregateDelta rollups aggregate multiplier).map Row.key ↔
      key = aggregate.key ∨ key ∈ rollups.map Row.key := by
  rw [applyAggregateDelta]
  refine ⟨mem_keys_upsert fun _ hkey => hkey, fun h => ?_⟩
  by_contra hnot
  rw [← lookupKey_eq_none, lookupKey_upsert fun _ hkey => hkey] at hnot
  split at hnot
  · cases hnot
  · rename_i hne
    exact lookupKey_eq_none.mp hnot (h.resolve_left hne)

theorem mem_keys_foldl {aggregates : List (Aggregate κ γ)} {key : κ} :
    key ∈ (aggregates.foldl (applyAggregateDelta · · 1) rollups).map Row.key ↔
      key ∈ aggregates.map Aggregate.key ∨ key ∈ rollups.map Row.key := by
  induction aggregates generalizing rollups with
  | nil => simp
  | cons aggregate aggregates ih =>
    rw [List.foldl_cons, ih, mem_keys_applyAggregateDelta, List.map_cons, List.mem_cons]
    tauto

/-! ## Sums of rollups -/

/-- The sum of two cells, as an integer of any size. -/
def Cell.plus : Cell → Cell → Cell
  | .integer a, .integer b => .integer (a + b)
  | _, _ => .real

/-- A floating-point number where one of the cells is one. -/
def sumCells (cells : List Cell) : Cell := cells.foldr Cell.plus (.integer 0)

def Cell.Representable : Cell → Prop
  | .integer value => Fits value
  | .real => True

instance (cell : Cell) : Decidable cell.Representable :=
  match cell with
  | .integer value => inferInstanceAs (Decidable (Fits value))
  | .real => inferInstanceAs (Decidable True)

/-- `SELECT key, SUM(…), … GROUP BY key`, for one group and the columns that are summed. -/
def sumGroup (overflow : ε) (columns : List γ) (group : κ × List (Row κ γ)) : Except ε (Row κ γ) :=
  let row : Row κ γ := ⟨group.1, fun column => sumCells (group.2.map fun row => row.cell column)⟩
  if ∀ column ∈ columns, (row.cell column).Representable then .ok row else .error overflow

theorem sumCells_append (front back : List Cell) :
    sumCells (front ++ back) = (sumCells front).plus (sumCells back) := by
  induction front with
  | nil =>
    show sumCells back = Cell.plus (.integer 0) (sumCells back)
    cases sumCells back with
    | integer value => rw [Cell.plus, Int.zero_add]
    | real => rfl
  | cons cell front ih =>
    show cell.plus (sumCells (front ++ back)) = (cell.plus (sumCells front)).plus (sumCells back)
    rw [ih]
    cases cell with
    | real => cases sumCells front <;> cases sumCells back <;> rfl
    | integer value =>
      cases sumCells front with
      | real => cases sumCells back <;> rfl
      | integer sum =>
        cases sumCells back with
        | real => rfl
        | integer rest => rw [Cell.plus, Cell.plus, Cell.plus, Cell.plus, Int.add_assoc]

/-- Rollups with distinct keys are summed as they are. -/
theorem sumCells_keyed (h : Keyed rollups) (key : κ) (column : γ) :
    sumCells ((rollups.filter fun row => row.key = key).map fun row => row.cell column) =
      cellAt rollups key column := by
  induction rollups with
  | nil => rfl
  | cons row rollups ih =>
    rw [Keyed, List.map_cons, List.nodup_cons] at h
    by_cases hkey : row.key = key
    · have hrest : (rollups.filter fun row => row.key = key) = [] := by
        refine List.filter_eq_nil_iff.mpr fun other hother hsame => h.1 ?_
        rw [hkey, ← of_decide_eq_true hsame]
        exact List.mem_map_of_mem hother
      have hcell : cellAt (row :: rollups) key column = row.cell column := by
        rw [cellAt, lookupKey, List.find?_cons_of_pos (by simpa using hkey)]
      rw [List.filter_cons_of_pos (by simpa using hkey), hrest, hcell]
      show (row.cell column).plus (.integer 0) = row.cell column
      cases row.cell column with
      | integer value => rw [Cell.plus, Int.add_zero]
      | real => rfl
    · have hcell : cellAt (row :: rollups) key column = cellAt rollups key column := by
        rw [cellAt, cellAt, lookupKey, lookupKey, List.find?_cons_of_neg (by simpa using hkey)]
      rw [List.filter_cons_of_neg (by simpa using hkey), hcell]
      exact ih h.2

/-! ## Rolling up -/

section
variable [Fintype γ] {overflow : ε} {key : ρ → κ} {column : ρ → γ → Option Nat}

/-- What a row adds by itself. -/
def aggregateOf (key : ρ → κ) (column : ρ → γ → Option Nat) (row : ρ) : Aggregate κ γ :=
  ⟨key row, fun c => (column row c).getD 0⟩

/-- The exact aggregate of a group. -/
def exactAggregate (column : ρ → γ → Option Nat) (group : κ × List ρ) : Aggregate κ γ :=
  ⟨group.1, fun c => sumOf (group.2.map fun row => column row c)⟩

omit [DecidableEq κ] in
theorem mapM_aggregateGroup {groups : List (κ × List ρ)} {aggregates : List (Aggregate κ γ)} :
    groups.mapM (aggregateGroup overflow column) = .ok aggregates ↔
      aggregates = groups.map (exactAggregate column) ∧
        ∀ group ∈ groups, ∀ c, (exactAggregate column group).value c ≤ maxInteger := by
  refine mapM_eq_ok fun group aggregate => ?_
  rw [aggregateGroup]
  split
  case isTrue h => exact ⟨fun heq => ⟨(Except.ok.inj heq).symm, h⟩, fun heq => congrArg Except.ok heq.1.symm⟩
  case isFalse h => exact ⟨nofun, fun heq => absurd heq.2 h⟩

omit [Fintype γ] in
theorem keys_groups (rows : List ρ) :
    ((groupRows key rows).map (exactAggregate column)).map Aggregate.key = (rows.map key).dedup := by
  rw [List.map_map, groupRows, List.map_map]
  exact List.map_id _

omit [Fintype γ] in
theorem nodup_groups (rows : List ρ) :
    (((groupRows key rows).map (exactAggregate column)).map Aggregate.key).Nodup := by
  rw [keys_groups]
  exact List.nodup_dedup _

omit [Fintype γ] in
theorem sum_column (rows : List ρ) (k : κ) (c : γ) :
    sumOf ((rows.filter fun row => key row = k).map fun row => column row c) =
      total (aggregateOf key column) rows k c := by
  induction rows with
  | nil => rfl
  | cons row rows ih =>
    have hkey : (aggregateOf key column row).key = key row := rfl
    rw [total_cons, List.filter_cons, hkey]
    by_cases h : key row = k
    · rw [if_pos (by simpa using h), if_pos h, ← ih]
      exact List.sum_cons ..
    · rw [if_neg (by simpa using h), if_neg h, ih, Nat.zero_add]

omit [Fintype γ] in
/-- The sums of a query are 64-bit integers. -/
theorem groups_fit {rows : List ρ} : (∀ group ∈ groupRows key rows, ∀ c,
    (exactAggregate column group).value c ≤ maxInteger) ↔ InRange (aggregateOf key column) rows := by
  constructor
  · intro h k c
    by_cases hkey : k ∈ rows.map key
    · rw [← sum_column]
      exact h _ (List.mem_map_of_mem (List.mem_dedup.mpr hkey)) c
    · rw [total_of_absent hkey]
      exact Nat.zero_le _
  · rintro h ⟨k, group⟩ hgroup c
    obtain rfl := mem_groupRows hgroup
    show sumOf _ ≤ maxInteger
    rw [sum_column]
    exact h k c

/-- What a query rolls up: for each key the sum of its rows. -/
theorem rollUp_eq_ok {rows : List ρ} {rollups' : List (Row κ γ)}
    (h : rollUp overflow key column rollups rows = .ok rollups') :
    (Keyed rollups → Keyed rollups') ∧
    (∀ k, k ∈ rollups'.map Row.key ↔ k ∈ rows.map key ∨ k ∈ rollups.map Row.key) ∧ ∀ k c,
      Added (total (aggregateOf key column) rows k c) (cellAt rollups k c) (cellAt rollups' k c) ∨
      (total (aggregateOf key column) rows k c = 0 ∧ cellAt rollups' k c = cellAt rollups k c) := by
  rw [rollUp] at h
  obtain ⟨aggregates, haggregates, h⟩ := bind_eq_ok.mp h
  obtain ⟨rfl, -⟩ := mapM_aggregateGroup.mp haggregates
  obtain rfl := Except.ok.inj h
  refine ⟨keyed_foldl _, fun k => ?_, fun k c => ?_⟩
  · rw [mem_keys_foldl, keys_groups, List.mem_dedup]
  by_cases hkey : k ∈ rows.map key
  · have hgroup : (k, rows.filter fun row => key row = k) ∈ groupRows key rows :=
      List.mem_map_of_mem (List.mem_dedup.mpr hkey)
    have hadded := @cellAt_foldl κ γ _ rollups _ (nodup_groups rows) _
      (List.mem_map_of_mem (f := exactAggregate column) hgroup) c
    have hvalue : (exactAggregate column (k, rows.filter fun row => key row = k)).value c =
        total (aggregateOf key column) rows k c := sum_column rows k c
    rw [hvalue] at hadded
    exact .inl hadded
  · have habsent : k ∉ ((groupRows key rows).map (exactAggregate column)).map Aggregate.key := by
      rw [keys_groups, List.mem_dedup]
      exact hkey
    refine .inr ⟨total_of_absent ?_ c, congrFun (cellAt_foldl_of_absent habsent) c⟩
    exact hkey

/-- A cell that holds a sum holds the sum with the rows after they are rolled up. -/
theorem Holds.rollUp {lost : Prop} {rows : List ρ} {rollups' : List (Row κ γ)} {value : Int} {k : κ} {c : γ}
    (h : Holds lost (cellAt rollups k c) value) (hrollUp : rollUp overflow key column rollups rows = .ok rollups')
    (hfits : lost ∨ Fits (value + total (aggregateOf key column) rows k c)) :
    Holds lost (cellAt rollups' k c) (value + total (aggregateOf key column) rows k c) := by
  rcases (rollUp_eq_ok hrollUp).2.2 k c with hadded | ⟨hzero, hsame⟩
  · exact h.added hadded hfits
  · rw [hsame, hzero, Nat.cast_zero, Int.add_zero]
    exact h

/-- A query whose sums are 64-bit integers does not fail. -/
theorem rollUp_ok (rollups : List (Row κ γ)) {rows : List ρ} (h : InRange (aggregateOf key column) rows) :
    ∃ rollups', rollUp overflow key column rollups rows = .ok rollups' := by
  exact ⟨_, bind_eq_ok.mpr ⟨_, mapM_aggregateGroup.mpr ⟨rfl, groups_fit.mpr h⟩, rfl⟩⟩

end

end

end

end Zenith.Rollups
