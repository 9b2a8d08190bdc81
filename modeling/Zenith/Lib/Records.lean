import Zenith.Lib.Tables

/-!
# Tables of records

A table whose rows are filed under the id they carry, as one with an `id` column and the whole record beside it.
-/

namespace Zenith.Records

open Std Zenith.Tables

structure RecordTable (ρ : Type) (idOf : ρ → String) where
  rows : Table String ρ
  keyed : ∀ {id record}, rows[id]? = some record → idOf record = id

namespace RecordTable

variable {ρ : Type} {idOf : ρ → String}

def empty : RecordTable ρ idOf := ⟨∅, fun h => nomatch (ExtTreeMap.getElem?_empty (α := String)).symm.trans h⟩

variable (t : RecordTable ρ idOf)

def get? (id : String) : Option ρ := t.rows[id]?

/-- The records in the order of their ids. -/
def all : List ρ := valuesOf t.rows

/-- `INSERT … ON CONFLICT(id) DO UPDATE`. -/
def upsert (record : ρ) : RecordTable ρ idOf where
  rows := t.rows.insert (idOf record) record
  keyed := by
    intro id other h
    rw [ExtTreeMap.getElem?_insert] at h
    split at h
    case isTrue heq => rw [← Option.some.inj h, LawfulEqCmp.eq_of_compare heq]
    case isFalse => exact t.keyed h

def delete (id : String) : RecordTable ρ idOf where
  rows := t.rows.erase id
  keyed := by
    intro other record h
    rw [ExtTreeMap.getElem?_erase] at h
    split at h
    case isTrue => exact nomatch h
    case isFalse => exact t.keyed h

/-- `UPDATE … WHERE id = ?`. -/
def update (id : String) (f : ρ → ρ) (hf : ∀ record, idOf (f record) = idOf record) : RecordTable ρ idOf where
  rows := t.rows.modify id f
  keyed := by
    intro other record h
    rw [ExtTreeMap.getElem?_modify] at h
    split at h
    case isTrue heq =>
      obtain ⟨before, hbefore, rfl⟩ := Option.map_eq_some_iff.mp h
      rw [hf, t.keyed hbefore, LawfulEqCmp.eq_of_compare heq]
    case isFalse => exact t.keyed h

variable {t}

variable {id : String} {record : ρ}

theorem get?_id (h : t.get? id = some record) : idOf record = id := t.keyed h

@[simp] theorem get?_upsert (record : ρ) (id : String) :
    (t.upsert record).get? id = if idOf record = id then some record else t.get? id := by
  show (t.rows.insert (idOf record) record)[id]? = _
  rw [ExtTreeMap.getElem?_insert]
  exact if_congr LawfulEqCmp.compare_eq_iff_eq rfl rfl

@[simp] theorem get?_delete (id other : String) :
    (t.delete id).get? other = if id = other then none else t.get? other := by
  show (t.rows.erase id)[other]? = _
  rw [ExtTreeMap.getElem?_erase]
  exact if_congr LawfulEqCmp.compare_eq_iff_eq rfl rfl

@[simp] theorem get?_update (id other : String) {f : ρ → ρ} (hf : ∀ record, idOf (f record) = idOf record) :
    (t.update id f hf).get? other = if id = other then (t.get? id).map f else t.get? other := by
  show (t.rows.modify id f)[other]? = _
  rw [ExtTreeMap.getElem?_modify]
  exact if_congr LawfulEqCmp.compare_eq_iff_eq rfl rfl

/-- What holds of the record of an id holds after an upsert if it holds of a new one. -/
theorem forall_get?_upsert {P : ρ → Prop} (h : ∀ record, t.get? id = some record → P record) {new : ρ}
    (hnew : idOf new = id → P new) : ∀ record, (t.upsert new).get? id = some record → P record := by
  intro record hget
  rw [get?_upsert] at hget
  split at hget
  case isTrue hid => exact Option.some.inj hget ▸ hnew hid
  case isFalse => exact h record hget

theorem forall_get?_delete {P : ρ → Prop} (h : ∀ record, t.get? id = some record → P record) (other : String) :
    ∀ record, (t.delete other).get? id = some record → P record := by
  intro record hget
  rw [get?_delete] at hget
  split at hget
  case isTrue => exact nomatch hget
  case isFalse => exact h record hget

theorem mem_all : record ∈ t.all ↔ t.get? (idOf record) = some record := by
  rw [all, mem_valuesOf]
  constructor
  · rintro ⟨id, h⟩
    obtain rfl := t.keyed h
    exact h
  · exact fun h => ⟨_, h⟩

theorem ext {t t' : RecordTable ρ idOf} (h : ∀ id, t.get? id = t'.get? id) : t = t' := by
  obtain ⟨rows, keyed⟩ := t
  obtain ⟨rows', keyed'⟩ := t'
  obtain rfl : rows = rows' := ExtTreeMap.ext_getElem? h
  rfl

/-- What was deleted is put back. -/
theorem upsert_delete (h : t.get? (idOf record) = some record) : (t.delete (idOf record)).upsert record = t := by
  refine ext fun id => ?_
  rw [get?_upsert, get?_delete]
  split
  case isTrue hid => rw [← h, hid]
  case isFalse => rfl

end RecordTable

end Zenith.Records
