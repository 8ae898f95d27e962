import Mathlib.Data.List.Infix

/-! Cutting a list at the first occurrence of another one, and then what follows it, and so on. -/

namespace Cut
variable {α : Type} [DecidableEq α] {sep s before after : List α}

/-- What stands before the first occurrence of `sep`, and what stands after it. -/
def cut (sep : List α) : List α → Option (List α × List α)
  | [] => if sep = [] then some ([], []) else none
  | a :: s =>
    if sep <+: a :: s then some ([], (a :: s).drop sep.length)
    else (cut sep s).map fun x => (a :: x.1, x.2)

theorem eq_of_cut (h : cut sep s = some (before, after)) : s = before ++ sep ++ after := by
  induction s generalizing before with
  | nil =>
    simp only [cut] at h
    split at h
    · rename_i hsep
      cases h
      simp [hsep]
    · cases h
  | cons a s ih =>
    simp only [cut] at h
    split at h
    · rename_i hpre
      obtain ⟨rest, hrest⟩ := hpre
      cases h
      rw [← hrest, List.drop_left, List.nil_append]
    · obtain ⟨⟨b, r⟩, hcut, heq⟩ := Option.map_eq_some_iff.mp h
      cases heq
      rw [ih hcut]
      simp

theorem cut_eq_none : cut sep s = none ↔ ¬sep <:+: s := by
  induction s with
  | nil => simp [cut]
  | cons a s ih =>
    rw [List.infix_cons_iff, not_or, ← ih]
    simp only [cut]
    split
    · rename_i hpre
      simp [hpre]
    · rename_i hpre
      simp [hpre]

/-- The first occurrence lies before no other one. -/
theorem not_infix_before (hsep : sep ≠ []) (h : cut sep s = some (before, after)) : ¬sep <:+: before := by
  induction s generalizing before with
  | nil =>
    simp only [cut, if_neg hsep] at h
    cases h
  | cons a s ih =>
    simp only [cut] at h
    split at h
    · cases h
      simpa using hsep
    · rename_i hpre
      obtain ⟨⟨b, r⟩, hcut, heq⟩ := Option.map_eq_some_iff.mp h
      cases heq
      rw [List.infix_cons_iff, not_or]
      refine ⟨fun hb => hpre ?_, ih hcut⟩
      have hs := eq_of_cut hcut
      rw [hs, List.append_assoc, ← List.cons_append]
      exact hb.trans (List.prefix_append ..)

theorem length_after_lt (hsep : sep ≠ []) (h : cut sep s = some (before, after)) : after.length < s.length := by
  have hpos := List.length_pos_iff.mpr hsep
  rw [eq_of_cut h, List.length_append, List.length_append]
  omega

/-- `sep` stands in `s` after `before`, and nowhere further left. -/
structure First (sep s before after : List α) : Prop where
  eq : s = before ++ sep ++ after
  leftmost : ∀ b a, s = b ++ sep ++ a → before.length ≤ b.length

theorem first_of_cut (h : cut sep s = some (before, after)) : First sep s before after where
  eq := eq_of_cut h
  leftmost b a heq := by
    induction s generalizing before b with
    | nil =>
      simp only [cut] at h
      split at h
      · cases h
        exact Nat.zero_le _
      · cases h
    | cons c s ih =>
      simp only [cut] at h
      split at h
      · cases h
        exact Nat.zero_le _
      · rename_i hpre
        obtain ⟨⟨b', r⟩, hcut, hx⟩ := Option.map_eq_some_iff.mp h
        cases hx
        cases b with
        | nil => exact absurd ⟨a, heq.symm⟩ hpre
        | cons d b =>
          obtain ⟨rfl, hs⟩ := List.cons.inj heq
          exact Nat.succ_le_succ (ih hcut b hs)

theorem cut_eq_some : cut sep s = some (before, after) ↔ First sep s before after := by
  refine ⟨first_of_cut, fun h => ?_⟩
  cases hcut : cut sep s with
  | none => exact absurd ⟨before, after, h.eq.symm⟩ (cut_eq_none.mp hcut)
  | some x =>
    have hx := first_of_cut hcut
    have hlen : x.1.length = before.length := Nat.le_antisymm (hx.leftmost _ _ h.eq) (h.leftmost _ _ hx.eq)
    have heq : x.1 ++ (sep ++ x.2) = before ++ (sep ++ after) := by
      rw [← List.append_assoc, ← List.append_assoc, ← hx.eq, ← h.eq]
    obtain ⟨hbefore, hrest⟩ := List.append_inj heq hlen
    rw [← hbefore, ← List.append_cancel_left hrest]

/-- Behind a piece without its first element the separator is the first one. -/
theorem cut_of_notMem {a : α} {piece rest : List α} (h : a ∉ piece) :
    cut (a :: sep) (piece ++ a :: sep ++ rest) = some (piece, rest) := by
  induction piece with
  | nil => simp [cut]
  | cons c piece ih =>
    obtain ⟨hc, hpiece⟩ := not_or.mp (mt List.mem_cons.mpr h)
    have hpre : ¬a :: sep <+: c :: (piece ++ a :: sep ++ rest) := fun hpre => hc (List.cons_prefix_cons.mp hpre).1
    simp only [List.cons_append, cut, if_neg hpre, ih hpiece, Option.map_some]

/-! ### All pieces -/

/-- `Pieces sep s ps`: cut at the leftmost occurrences of `sep` that do not overlap, `s` falls into `ps`. -/
inductive Pieces (sep : List α) : List α → List (List α) → Prop
  | last {s : List α} : ¬sep <:+: s → Pieces sep s [s]
  | cons {s before after : List α} {ps : List (List α)} :
      First sep s before after → Pieces sep after ps → Pieces sep s (before :: ps)

theorem exists_pieces (hsep : sep ≠ []) (s : List α) : ∃ ps, Pieces sep s ps := by
  induction hn : s.length using Nat.strongRecOn generalizing s with
  | ind n ih =>
    cases hcut : cut sep s with
    | none => exact ⟨[s], .last (cut_eq_none.mp hcut)⟩
    | some x =>
      obtain ⟨ps, hps⟩ := ih _ (hn ▸ length_after_lt hsep hcut) x.2 rfl
      exact ⟨x.1 :: ps, .cons (first_of_cut hcut) hps⟩

theorem Pieces.unique {ps qs : List (List α)} (hp : Pieces sep s ps) (hq : Pieces sep s qs) : ps = qs := by
  induction hp generalizing qs with
  | last hnot =>
    cases hq with
    | last => rfl
    | cons hfirst => exact absurd ⟨_, _, hfirst.eq.symm⟩ hnot
  | cons hfirst _ ih =>
    cases hq with
    | last hnot => exact absurd ⟨_, _, hfirst.eq.symm⟩ hnot
    | cons hfirst' hq =>
      obtain ⟨rfl, rfl⟩ := Prod.mk.inj (Option.some.inj ((cut_eq_some.mpr hfirst).symm.trans (cut_eq_some.mpr hfirst')))
      rw [ih hq]

theorem Pieces.not_infix {ps : List (List α)} {p : List α} (hsep : sep ≠ []) (h : Pieces sep s ps) (hp : p ∈ ps) :
    ¬sep <:+: p := by
  induction h with
  | last hnot =>
    obtain rfl := List.mem_singleton.mp hp
    exact hnot
  | cons hfirst _ ih =>
    rcases List.mem_cons.mp hp with rfl | hp
    · exact not_infix_before hsep (cut_eq_some.mpr hfirst)
    · exact ih hp

omit [DecidableEq α] in
theorem Pieces.infix {ps : List (List α)} {p : List α} (h : Pieces sep s ps) (hp : p ∈ ps) : p <:+: s := by
  induction h with
  | last =>
    obtain rfl := List.mem_singleton.mp hp
    exact List.infix_rfl
  | @cons s before after ps hfirst _ ih =>
    rw [hfirst.eq]
    rcases List.mem_cons.mp hp with rfl | hp
    · exact ⟨[], sep ++ after, by simp⟩
    · exact (ih hp).trans (List.suffix_append ..).isInfix

end Cut
