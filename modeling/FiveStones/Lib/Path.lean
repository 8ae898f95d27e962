import Mathlib.Data.List.DropRight

/-! Paths as texts, and what they resolve to when `.` and `..` are taken away without a look at any file. -/

namespace FiveStones

namespace Path

/-- The names of the directories from `/` down to a file or a directory. -/
abbrev Names := List (List Char)

/-- What stands between the slashes of a path. -/
def components : List Char → Names
  | [] => [[]]
  | c :: s =>
    if c = '/' then [] :: components s
    else
      match components s with
      | [] => [[c]]
      | n :: ns => (c :: n) :: ns

/-- One component on, from a directory. The directory above `/` is `/`. -/
def step (names : Names) (c : List Char) : Names :=
  if c = [] ∨ c = ['.'] then names else if c = ['.', '.'] then names.dropLast else names ++ [c]

def walk (names : Names) (s : List Char) : Names := (components s).foldl step names

/-- Where a path starts: at `/`, or in the working directory. -/
def start (cwd : Names) (s : List Char) : Names := if s.head? = some '/' then [] else cwd

def resolve (cwd : Names) (s : List Char) : Names := walk (start cwd s) s

/-- The path resolves to the root, or to something below it. -/
def Inside (cwd : Names) (root path : List Char) : Prop := resolve cwd root <+: resolve cwd path

instance (cwd : Names) (root path : List Char) : Decidable (Inside cwd root path) := inferInstanceAs (Decidable (_ <+: _))

/-- A path resolved on its own: so many directories up, and then down these names. -/
structure Relative where
  ups : Nat
  names : Names
  deriving DecidableEq

def Relative.step (r : Relative) (c : List Char) : Relative :=
  if c = [] ∨ c = ['.'] then r
  else if c = ['.', '.'] then if r.names = [] then ⟨r.ups + 1, []⟩ else ⟨r.ups, r.names.dropLast⟩
  else ⟨r.ups, r.names ++ [c]⟩

def relative (s : List Char) : Relative := (components s).foldl Relative.step ⟨0, []⟩

/-- A path up to its last slash, and what follows the slash. -/
def dirOf (s : List Char) : List Char := s.rdropWhile (· ≠ '/')

def baseOf (s : List Char) : List Char := s.rtakeWhile (· ≠ '/')

variable {cwd names : Names} {root tail s t : List Char} {n : Nat}

theorem components_ne_nil (s : List Char) : components s ≠ [] := by
  cases s with
  | nil => simp [components]
  | cons c s =>
    unfold components
    split
    · simp
    · split <;> simp

theorem components_append_slash (s t : List Char) : components (s ++ '/' :: t) = components s ++ components t := by
  induction s with
  | nil => simp [components]
  | cons c s ih =>
    simp only [List.cons_append, components, ih]
    split
    · rfl
    · cases hs : components s with
      | nil => exact absurd hs (components_ne_nil s)
      | cons n ns => rfl

theorem components_of_notMem (h : '/' ∉ s) : components s = [s] := by
  induction s with
  | nil => rfl
  | cons c s ih =>
    obtain ⟨hne, hs⟩ : '/' ≠ c ∧ '/' ∉ s := by simpa using h
    simp [components, ih hs, hne.symm]

@[simp] theorem walk_nil (names : Names) : walk names [] = names := by simp [walk, components, step]

theorem walk_append_slash (names : Names) (s t : List Char) : walk names (s ++ '/' :: t) = walk (walk names s) t := by
  simp [walk, components_append_slash]

theorem dirOf_append_baseOf (s : List Char) : dirOf s ++ baseOf s = s := List.rdropWhile_append_rtakeWhile

theorem walk_dirOf (names : Names) (s t : List Char) : walk names (dirOf s ++ t) = walk (walk names (dirOf s)) t := by
  rcases List.eq_nil_or_concat (dirOf s) with hnil | ⟨d, c, heq⟩
  · simp [hnil]
  · have hc : c = '/' := by
      have hlast := List.rdropWhile_last_not (fun c : Char => decide (c ≠ '/')) s (by
        show dirOf s ≠ []
        simp [heq])
      simp only [show s.rdropWhile (fun c : Char => decide (c ≠ '/')) = dirOf s from rfl, heq] at hlast
      simpa using hlast
    subst hc
    have hdir : walk names (d ++ '/' :: []) = walk names d := by rw [walk_append_slash, walk_nil]
    rw [heq, List.concat_eq_append, hdir, List.append_assoc, List.singleton_append, walk_append_slash]

theorem walk_baseOf (names : Names) (s : List Char) : walk names (baseOf s) = step names (baseOf s) := by
  have hfree : '/' ∉ baseOf s := fun h => by simpa using List.mem_rtakeWhile_imp h
  rw [walk, components_of_notMem hfree]
  rfl

/-- A walk goes up as far as the path resolved on its own does, and then down its names. -/
theorem walk_eq (names : Names) (s : List Char) :
    walk names s = names.take (names.length - (relative s).ups) ++ (relative s).names := by
  have hfold : ∀ (cs : Names) (r : Relative), cs.foldl step (names.take (names.length - r.ups) ++ r.names) =
      names.take (names.length - (cs.foldl Relative.step r).ups) ++ (cs.foldl Relative.step r).names := by
    intro cs
    induction cs with
    | nil => exact fun _ => rfl
    | cons c cs ih =>
      intro r
      have hstep : step (names.take (names.length - r.ups) ++ r.names) c =
          names.take (names.length - (r.step c).ups) ++ (r.step c).names := by
        unfold step Relative.step
        split
        · rfl
        split
        · split
          · rename_i hnil
            rw [hnil, List.append_nil, List.append_nil, List.dropLast_eq_take, List.take_take, List.length_take]
            congr 1
            dsimp only
            omega
          · rename_i hne
            rw [List.dropLast_append_of_ne_nil hne]
        · rw [List.append_assoc]
      rw [List.foldl_cons, List.foldl_cons, hstep, ih]
  simpa [walk, relative] using hfold (components s) ⟨0, []⟩

/-! ### A root with a path behind it -/

/-- What stands after the last slash of the root, the tail included, goes up so far that the names of the root from
    there on are the first ones that it goes down again. -/
def Stays (cwd : Names) (root tail : List Char) : Prop :=
  (resolve cwd root).drop ((walk (start cwd (root ++ tail)) (dirOf root)).length - (relative (baseOf root ++ tail)).ups) <+:
    (relative (baseOf root ++ tail)).names

instance (cwd : Names) (root tail : List Char) : Decidable (Stays cwd root tail) := inferInstanceAs (Decidable (_ <+: _))

theorem prefix_take_append_iff {r d names : Names} (hn : n ≤ d.length) (h : r.take n <+: d) :
    r <+: d.take n ++ names ↔ r.drop n <+: names := by
  rcases Nat.lt_or_ge n r.length with hlt | hge
  · have htake : r.take n = d.take n := by
      rw [List.prefix_iff_eq_take.mp h, List.length_take, Nat.min_eq_left hlt.le]
    conv_lhs => rw [← List.take_append_drop n r, htake]
    exact List.prefix_append_right_inj _
  · rw [List.take_of_length_le hge] at h
    rw [List.drop_of_length_le hge]
    refine iff_of_true ?_ List.nil_prefix
    have hd : d.take n <+: d := List.take_prefix n d
    have hlen : r.length ≤ (d.take n).length := by
      rw [List.length_take, Nat.min_eq_left hn]
      exact hge
    exact (List.prefix_of_prefix_length_le h hd hlen).trans (List.prefix_append _ _)

/-- One component on from a directory, no more than the directory's own names are new before its length. -/
theorem take_step_isPrefix (hn : n ≤ names.length) (c : List Char) : (step names c).take n <+: names := by
  unfold step
  split
  · exact List.take_prefix n names
  split
  · have htake : names.dropLast.take n <+: names.dropLast := List.take_prefix n _
    have hdrop : names.dropLast <+: names := List.dropLast_prefix names
    exact htake.trans hdrop
  · rw [List.take_append_of_le_length hn]
    exact List.take_prefix n names

theorem inside_append_iff : Inside cwd root (root ++ tail) ↔ Stays cwd root tail := by
  have hpath : resolve cwd (root ++ tail) =
      walk (walk (start cwd (root ++ tail)) (dirOf root)) (baseOf root ++ tail) := by
    rw [← walk_dirOf, ← List.append_assoc, dirOf_append_baseOf]
    rfl
  rw [Inside, hpath, walk_eq _ (baseOf root ++ tail), Stays]
  refine prefix_take_append_iff (Nat.sub_le _ _) ?_
  by_cases hroot : root = []
  · subst hroot
    -- Without a root the path starts at `/` where the tail does, and in the working directory otherwise.
    have hdir : dirOf ([] : List Char) = [] := rfl
    rw [hdir, walk_nil, List.nil_append]
    unfold start
    split
    · simp
    · exact List.take_prefix _ _
  · have hstart : start cwd (root ++ tail) = start cwd root := by
      obtain ⟨c, s, rfl⟩ := List.exists_cons_of_ne_nil hroot
      rfl
    have hbase : resolve cwd root = step (walk (start cwd root) (dirOf root)) (baseOf root) := by
      rw [← walk_baseOf, ← walk_dirOf, dirOf_append_baseOf]
      rfl
    rw [hstart, hbase]
    exact take_step_isPrefix (Nat.sub_le _ _) _

end Path
end FiveStones
