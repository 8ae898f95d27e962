import Mathlib.Data.List.Nodup
import Mathlib.Algebra.BigOperators.Group.List.Basic
import Mathlib.Algebra.Ring.Nat

/-! Tables as lists of rows with a key, and the update of the rows under one key, which changes all of them
or, when it fails for one, none. -/

namespace Rows
variable {ρ κ : Type} [DecidableEq κ] {key : ρ → κ} {k : κ} {f : ρ → Option ρ} {t t' : List ρ} {row row' : ρ}

def update (key : ρ → κ) (k : κ) (f : ρ → Option ρ) : List ρ → Option (List ρ)
  | [] => some []
  | row :: t =>
    match if key row = k then f row else some row, update key k f t with
    | some row, some t => some (row :: t)
    | _, _ => none

theorem update_of_absent (h : k ∉ t.map key) : update key k f t = some t := by
  induction t with
  | nil => rfl
  | cons row t ih =>
    simp only [List.map_cons, List.mem_cons, not_or] at h
    simp only [update, if_neg (Ne.symm h.1), ih h.2]

/-- Where keys are unique, there is one row under the key of a row. -/
theorem filter_key (hnodup : (t.map key).Nodup) (hmem : row ∈ t) : t.filter (fun r => key r = key row) = [row] := by
  induction t with
  | nil => cases hmem
  | cons row₀ t ih =>
    rw [List.map_cons, List.nodup_cons] at hnodup
    rcases List.mem_cons.mp hmem with rfl | hmem
    · have hrest : t.filter (fun r => key r = key row) = [] := by
        refine List.filter_eq_nil_iff.mpr fun r hr heq => hnodup.1 ?_
        exact of_decide_eq_true heq ▸ List.mem_map_of_mem hr
      rw [List.filter_cons_of_pos (by simp), hrest]
    · have hne : key row₀ ≠ key row := fun heq => hnodup.1 (heq ▸ List.mem_map_of_mem hmem)
      rw [List.filter_cons_of_neg (by simp [hne]), ih hnodup.2 hmem]

/-- Where keys are unique, an update rewrites the one row under its key. -/
theorem update_eq_some (hnodup : (t.map key).Nodup) (hmem : row ∈ t) (hkey : key row = k) (hf : f row = some row') :
    ∃ before after, t = before ++ row :: after ∧ update key k f t = some (before ++ row' :: after) := by
  induction t with
  | nil => cases hmem
  | cons row₀ t ih =>
    rw [List.map_cons, List.nodup_cons] at hnodup
    rcases List.mem_cons.mp hmem with rfl | hmem
    · refine ⟨[], t, rfl, ?_⟩
      rw [hkey] at hnodup
      simp only [update, hkey, ↓reduceIte, hf, update_of_absent hnodup.1, List.nil_append]
    · have hne : key row₀ ≠ k := by
        rintro rfl
        exact hnodup.1 (hkey ▸ List.mem_map_of_mem hmem)
      obtain ⟨before, after, rfl, hup⟩ := ih hnodup.2 hmem
      exact ⟨row₀ :: before, after, rfl, by simp only [update, if_neg hne, hup, List.cons_append]⟩

theorem update_eq_none (hmem : row ∈ t) (hkey : key row = k) (hf : f row = none) : update key k f t = none := by
  induction t with
  | nil => cases hmem
  | cons row₀ t ih =>
    rcases List.mem_cons.mp hmem with rfl | hmem
    · simp only [update, hkey, ↓reduceIte, hf]
    · simp only [update, ih hmem]
      split <;> simp_all

/-- Each row, and what an update makes of it. -/
theorem forall₂_of_update (h : update key k f t = some t') :
    List.Forall₂ (fun row row' => (if key row = k then f row else some row) = some row') t t' := by
  induction t generalizing t' with
  | nil =>
    obtain rfl := Option.some.inj h
    exact .nil
  | cons row t ih =>
    simp only [update] at h
    split at h
    · rename_i row' t₁ hrow ht
      obtain rfl := Option.some.inj h
      exact .cons hrow (ih ht)
    · cases h

theorem exists_right {R : ρ → ρ → Prop} (h : List.Forall₂ R t t') (hmem : row ∈ t) : ∃ row' ∈ t', R row row' := by
  induction h with
  | nil => cases hmem
  | @cons row₀ row₀' t t' hrow _ ih =>
    rcases List.mem_cons.mp hmem with rfl | hmem
    · exact ⟨row₀', List.mem_cons_self .., hrow⟩
    · obtain ⟨row', hrow', hr⟩ := ih hmem
      exact ⟨row', List.mem_cons_of_mem _ hrow', hr⟩

theorem exists_left {R : ρ → ρ → Prop} (h : List.Forall₂ R t t') (hmem : row' ∈ t') : ∃ row ∈ t, R row row' :=
  exists_right h.flip hmem

theorem sum_replace (g : ρ → Nat) (before after : List ρ) (row row' : ρ) :
    ((before ++ row' :: after).map g).sum + g row = ((before ++ row :: after).map g).sum + g row' := by
  simp only [List.map_append, List.map_cons, List.sum_append, List.sum_cons]
  omega

end Rows
