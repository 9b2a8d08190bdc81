import Mathlib

/-!
# The first of each key

`keepFirst` goes through a list and keeps what has a key that was not seen yet. Nothing is lost of the keys
(`mem_keys_keepFirst`), none is kept twice (`nodup_keepFirst`), and a list without repetitions stays as it is
(`keepFirst_of_nodup`).
-/

namespace Zenith.Distinct

variable {α κ : Type*} [DecidableEq κ] {key : α → κ}

/-- The elements with a new key. `seen` are the keys before. -/
def keepFirst (key : α → κ) : List κ → List α → List α
  | _, [] => []
  | seen, a :: l => if key a ∈ seen then keepFirst key seen l else a :: keepFirst key (key a :: seen) l

attribute [local simp] keepFirst

theorem keepFirst_sublist (key : α → κ) (seen : List κ) (l : List α) : (keepFirst key seen l).Sublist l := by
  induction l generalizing seen with
  | nil => exact List.Sublist.refl []
  | cons a l ih =>
    rw [keepFirst]
    split
    case isTrue => exact (ih seen).cons a
    case isFalse => exact (ih (key a :: seen)).cons_cons a

variable {seen : List κ}

/-- The kept keys are the new ones. -/
theorem mem_keys_keepFirst {l : List α} {k : κ} :
    k ∈ (keepFirst key seen l).map key ↔ k ∈ l.map key ∧ k ∉ seen := by
  induction l generalizing seen with
  | nil => exact ⟨nofun, nofun⟩
  | cons a l ih =>
    rw [keepFirst]
    split
    case isTrue ha =>
      rw [ih, List.map_cons, List.mem_cons]
      refine ⟨fun h => ⟨.inr h.1, h.2⟩, fun h => ⟨h.1.resolve_left fun hk => h.2 (hk ▸ ha), h.2⟩⟩
    case isFalse ha =>
      rw [List.map_cons, List.map_cons, List.mem_cons, List.mem_cons, ih, List.mem_cons]
      by_cases hk : k = key a
      · exact ⟨fun _ => ⟨.inl hk, hk ▸ ha⟩, fun _ => .inl hk⟩
      · simp [hk]

theorem nodup_keepFirst (seen : List κ) (l : List α) : ((keepFirst key seen l).map key).Nodup := by
  induction l generalizing seen with
  | nil => exact List.nodup_nil
  | cons a l ih =>
    rw [keepFirst]
    split
    case isTrue => exact ih seen
    case isFalse =>
      rw [List.map_cons, List.nodup_cons]
      refine ⟨fun h => ?_, ih _⟩
      exact (mem_keys_keepFirst.mp h).2 List.mem_cons_self

theorem keepFirst_of_nodup {l : List α} (hnodup : (l.map key).Nodup) (hseen : ∀ a ∈ l, key a ∉ seen) :
    keepFirst key seen l = l := by
  induction l generalizing seen with
  | nil => rfl
  | cons a l ih =>
    obtain ⟨hkey, hnodup⟩ := List.nodup_cons.mp hnodup
    obtain ⟨ha, hseen⟩ := List.forall_mem_cons.mp hseen
    rw [keepFirst, if_neg ha, ih hnodup]
    intro b hb hmem
    rcases List.mem_cons.mp hmem with heq | hmem
    · exact hkey (heq ▸ List.mem_map_of_mem hb)
    · exact hseen b hb hmem

theorem keepFirst_idem (key : α → κ) (l : List α) : keepFirst key [] (keepFirst key [] l) = keepFirst key [] l :=
  keepFirst_of_nodup (nodup_keepFirst [] l) fun _ _ => List.not_mem_nil

theorem keepFirst_seen {front back : List α} {a : α} (h : key a ∈ seen ∨ key a ∈ front.map key) :
    keepFirst key seen (front ++ a :: back) = keepFirst key seen (front ++ back) := by
  induction front generalizing seen with
  | nil => exact if_pos (h.resolve_right List.not_mem_nil)
  | cons b front ih =>
    rw [List.cons_append, List.cons_append, keepFirst, keepFirst]
    rw [List.map_cons, List.mem_cons] at h
    split
    case isTrue hb =>
      refine ih ?_
      rcases h with h | heq | h
      · exact .inl h
      · exact .inl (heq ▸ hb)
      · exact .inr h
    case isFalse =>
      refine congrArg (b :: ·) (ih ?_)
      rcases h with h | heq | h
      · exact .inl (List.mem_cons_of_mem _ h)
      · exact .inl (heq ▸ List.mem_cons_self)
      · exact .inr h

/-- A later element with the same key makes no difference. -/
theorem keepFirst_repeated {front back : List α} {a : α} (h : key a ∈ front.map key) :
    keepFirst key seen (front ++ a :: back) = keepFirst key seen (front ++ back) := keepFirst_seen (.inr h)

end Zenith.Distinct
