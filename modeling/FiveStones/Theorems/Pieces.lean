import FiveStones.Text

/-! What `split` gives, against the pieces between the leftmost separators. -/

namespace FiveStones
namespace Text
variable {sep input : Text}

/-! ### The loop -/

/-- Wherever the loop stands, enough rounds add the pieces of what is left. -/
theorem splitWhile_eq (hsep : sep ≠ []) {fuel idx : Nat} {arry : List Text} (hfuel : input.length - idx < fuel) :
    splitWhile input sep fuel idx arry = some (arry ++ split (input.drop idx) sep) := by
  -- On the rounds left: a round that goes on has moved `idx` behind a separator.
  induction fuel generalizing idx arry with
  | zero => omega
  | succ fuel ih =>
    unfold splitWhile
    by_cases hidx : idx < input.length
    · have hdrop : input.drop idx ≠ [] := by simpa using hidx
      rw [if_pos hidx, split_eq hsep hdrop]
      cases hcut : Cut.cut sep (input.drop idx) with
      | none => simp only [find, hcut, Option.map_none]
      | some x =>
        obtain ⟨piece, after⟩ := x
        have heq := Cut.eq_of_cut hcut
        have hlen : input.length - idx = piece.length + sep.length + after.length := by
          rw [← List.length_drop, heq, List.length_append, List.length_append]
        have hpos := List.length_pos_iff.mpr hsep
        have hafter : input.drop (idx + piece.length + sep.length) = after := by
          rw [Nat.add_assoc, ← List.drop_drop, heq, ← List.length_append, List.drop_left]
        have hpiece : input.substr idx piece.length = piece := by
          rw [substr, heq, List.append_assoc, List.take_left]
        have hround : input.length - (idx + piece.length + sep.length) < fuel := by omega
        simp only [find, hcut, Option.map_some, ih hround, hafter]
        by_cases hempty : piece = []
        · simp [hempty]
        · simp [hempty, hpiece]
    · rw [if_neg hidx, List.drop_eq_nil_of_le (Nat.not_lt.mp hidx), split_nil hsep, List.append_nil]

theorem splitInto_eq (hsep : sep ≠ []) {fuel : Nat} (hfuel : input.length < fuel) :
    splitInto fuel input sep = some (split input sep, ((split input sep).length : Int).bmod (2 ^ 32)) := by
  rw [splitInto, if_neg hsep, splitWhile_eq hsep hfuel]
  rfl

theorem bmod_of_lt {n : Nat} (h : n < 2 ^ 31) : (n : Int).bmod (2 ^ 32) = n := by
  rw [Int.bmod_def]
  omega

/-! ### Pieces that are joined -/

/-- The pieces with one separator or more in between: `gap i + 1` of them behind the `i`th. -/
def joined (sep : Char) : (Nat → Nat) → List Text → Text
  | _, [] => []
  | _, [p] => p
  | gap, p :: q :: ps => p ++ List.replicate (gap 0 + 1) sep ++ joined sep (fun i => gap (i + 1)) (q :: ps)

theorem split_replicate_append (sep : Char) (n : Nat) (rest : Text) :
    split (List.replicate n sep ++ rest) [sep] = split rest [sep] := by
  induction n with
  | zero => rfl
  | succ n ih => exact (split_append_left (List.cons_ne_nil _ _)).trans ih

theorem split_joined {sep : Char} {ps : List Text} (hps : ∀ p ∈ ps, p ≠ [] ∧ sep ∉ p) (gap : Nat → Nat) (b : Nat) :
    split (joined sep gap ps ++ List.replicate b sep) [sep] = ps := by
  have hnil : split (List.replicate b sep) [sep] = [] := by
    have h := split_replicate_append sep b []
    rwa [List.append_nil, split_nil (List.cons_ne_nil _ _)] at h
  induction ps generalizing gap with
  | nil => exact hnil
  | cons p ps ih =>
    obtain ⟨hne, hfree⟩ := hps p (List.mem_cons_self ..)
    have ih := ih fun q hq => hps q (List.mem_cons_of_mem _ hq)
    cases ps with
    | nil =>
      cases b with
      | zero =>
        have hwhole : ¬[sep] <:+: p := fun h => hfree (h.subset (List.mem_singleton_self _))
        simpa [joined] using split_eq_self (List.cons_ne_nil _ _) hne hwhole
      | succ b =>
        have hrest : split (List.replicate b sep) [sep] = [] :=
          (split_append_left (List.cons_ne_nil _ _)).symm.trans hnil
        rw [joined, List.replicate_succ, split_append_char hfree hne, hrest]
    | cons q ps =>
      have hrest := (split_replicate_append sep (gap 0) _).trans (ih fun i => gap (i + 1))
      rw [joined, List.replicate_succ, List.append_assoc, List.append_assoc, List.cons_append,
        split_append_char hfree hne, hrest]

/-! ### The whole of it -/

/-- The loop ends on every input, and leaves the pieces between the leftmost separators that are not empty, with
    their number. Pieces without the separator come back from any text that joins them. -/
theorem split_spec :
    (∀ input sep : Text, sep ≠ [] → ∃ ps arry ret,
      (Cut.Pieces sep input ps ∧ ∀ qs, Cut.Pieces sep input qs → qs = ps) ∧
      (∀ fuel, input.length < fuel → splitInto fuel input sep = some (arry, ret)) ∧
      arry = ps.filter (· ≠ []) ∧ (arry.length < 2 ^ 31 → ret = arry.length) ∧
      ∀ piece ∈ arry, piece ≠ [] ∧ ¬sep <:+: piece) ∧
    ∀ (sep : Char) (ps : List Text), (∀ p ∈ ps, p ≠ [] ∧ sep ∉ p) → ∀ (gap : Nat → Nat) (a b fuel : Nat),
      (List.replicate a sep ++ (joined sep gap ps ++ List.replicate b sep)).length < fuel →
      ∃ ret, splitInto fuel (List.replicate a sep ++ (joined sep gap ps ++ List.replicate b sep)) [sep] =
        some (ps, ret) := by
  constructor
  · intro input sep hsep
    obtain ⟨ps, hps⟩ := Cut.exists_pieces hsep input
    exact ⟨ps, split input sep, _, ⟨hps, fun qs hqs => hqs.unique hps⟩, fun fuel hfuel => splitInto_eq hsep hfuel,
      split_eq_filter hsep hps, bmod_of_lt, fun piece hpiece => mem_split hsep hpiece⟩
  · intro sep ps hps gap a b fuel hfuel
    have hsplit := (split_replicate_append sep a _).trans (split_joined hps gap b)
    have hinto := splitInto_eq (List.cons_ne_nil sep []) hfuel
    rw [hsplit] at hinto
    exact ⟨_, hinto⟩

theorem split_spec_commas : ∃ ret, splitInto 6 ",a,b,".toList [','] = some (["a".toList, "b".toList], ret) :=
  split_spec.2 ',' ["a".toList, "b".toList] (by decide) (fun _ => 0) 1 1 6 (by decide)

end Text
end FiveStones
