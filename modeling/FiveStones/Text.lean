import Mathlib.Algebra.Group.Int.Defs
import Mathlib.Algebra.Group.Nat.Defs
import Mathlib.Data.List.TakeWhile
import FiveStones.Lib.Cut

/-! Strings as the code has them, one character a byte, with `string_util::split`, `std::stoull` and
`std::to_string`. -/

namespace FiveStones

abbrev Text := List Char

namespace Text

/-- The loop of `split`, on what is left of the input from `idx`. -/
def splitLoop (sep : Text) : Nat → Text → List Text
  | 0, _ => []
  | fuel + 1, rest =>
    if rest = [] then []
    else
      match Cut.cut sep rest with
      | none => [rest]
      | some (piece, rest) => if piece ≠ [] then piece :: splitLoop sep fuel rest else splitLoop sep fuel rest

/-- `split`. Each round moves `idx` on, so there are no more rounds than characters. -/
def split (input sep : Text) : List Text := if sep = [] then [input] else splitLoop sep input.length input

/-- `std::string::find`, from `idx` on. -/
def find (s sep : Text) (idx : Nat) : Option Nat := (Cut.cut sep (s.drop idx)).map fun x => idx + x.1.length

/-- `std::string::substr`. -/
def substr (s : Text) (idx n : Nat) : Text := (s.drop idx).take n

/-- The loop of `split` on `idx` and `arry`, as the code has it. There is no result if it needs more than `fuel`
    tests of its condition. -/
def splitWhile (input sep : Text) : Nat → Nat → List Text → Option (List Text)
  | 0, _, _ => none
  | fuel + 1, idx, arry =>
    if idx < input.length then
      match input.find sep idx with
      | none => some (arry ++ [input.drop idx])
      | some pos =>
        splitWhile input sep fuel (pos + sep.length) (if pos ≠ idx then arry ++ [input.substr idx (pos - idx)] else arry)
    else some arry

/-- `split` with what it returns: what it leaves in `arry`, and the size of it as an `int`. -/
def splitInto (fuel : Nat) (input sep : Text) : Option (List Text × Int) :=
  if sep = [] then some ([input], 1)
  else (splitWhile input sep fuel 0 []).map fun arry => (arry, (arry.length : Int).bmod (2 ^ 32))

/-- The characters that `isspace` accepts. -/
def isSpace (c : Char) : Bool := c = ' ' || c = '\t' || c = '\n' || c = '\x0b' || c = '\x0c' || c = '\r'

inductive StoullError
  | invalidArgument
  | outOfRange
  deriving DecidableEq, Repr

/-- An optional sign, and what follows it. -/
def sign : Text → Bool × Text
  | '-' :: s => (true, s)
  | '+' :: s => (false, s)
  | s => (false, s)

/-- `std::stoull`: blanks, a sign and digits, and then anything. A minus sign gives the number that is
    missing to 2^64. -/
def stoull (s : Text) : Except StoullError UInt64 :=
  let (negative, s) := sign (s.dropWhile isSpace)
  let digits := s.takeWhile Char.isDigit
  let n := Nat.ofDigitChars 10 digits 0
  if digits = [] then .error .invalidArgument
  else if 2 ^ 64 ≤ n then .error .outOfRange
  else if negative then .ok (-.ofNat n)
  else .ok (.ofNat n)

/-- `std::stol` and `std::stoi`: the same for a number of `bits` bits with a sign. -/
def stoSigned (bits : Nat) (s : Text) : Except StoullError Int :=
  let (negative, s) := sign (s.dropWhile isSpace)
  let digits := s.takeWhile Char.isDigit
  let n : Int := Nat.ofDigitChars 10 digits 0
  let n := if negative then -n else n
  if digits = [] then .error .invalidArgument
  else if n < -2 ^ (bits - 1) ∨ 2 ^ (bits - 1) ≤ n then .error .outOfRange
  else .ok n

def stol (s : Text) : Except StoullError Int := stoSigned 64 s

def stoi (s : Text) : Except StoullError Int := stoSigned 32 s

/-- The bytes of a string, in UTF-8. -/
def ofString (s : String) : Text := (s.toList.flatMap String.utf8EncodeChar).map fun b => Char.ofNat b.toNat

/-- What C functions see of a string: no more than comes before a NUL. -/
def cString (s : Text) : Text := s.takeWhile (· ≠ '\x00')

/-- `std::to_string`. -/
def ofUInt64 (n : UInt64) : Text := Nat.toDigits 10 n.toNat

/-! ### `split` -/

section
variable {sep input rest piece : Text}

theorem splitLoop_fuel (hsep : sep ≠ []) : ∀ {fuel fuel' : Nat} {rest : Text}, rest.length ≤ fuel → rest.length ≤ fuel' →
    splitLoop sep fuel rest = splitLoop sep fuel' rest
  | 0, 0, _, _, _ => rfl
  | 0, _ + 1, rest, h, _ => by
    have hnil : rest = [] := List.length_eq_zero_iff.mp (Nat.le_zero.mp h)
    simp [splitLoop, hnil]
  | _ + 1, 0, rest, _, h => by
    have hnil : rest = [] := List.length_eq_zero_iff.mp (Nat.le_zero.mp h)
    simp [splitLoop, hnil]
  | fuel + 1, fuel' + 1, rest, h, h' => by
    simp only [splitLoop]
    split
    · rfl
    split
    · rfl
    · rename_i after hcut
      have hlt := Cut.length_after_lt hsep hcut
      rw [splitLoop_fuel hsep (Nat.le_of_lt_succ (hlt.trans_le h)) (Nat.le_of_lt_succ (hlt.trans_le h'))]

/-- One round of the loop. -/
theorem split_eq (hsep : sep ≠ []) (hinput : input ≠ []) : split input sep =
    match Cut.cut sep input with
    | none => [input]
    | some (piece, rest) => if piece ≠ [] then piece :: split rest sep else split rest sep := by
  have hloop : ∀ s, split s sep = splitLoop sep s.length s := fun s => by rw [split, if_neg hsep]
  have hlen : input.length = (input.length - 1) + 1 := by
    have := List.length_pos_iff.mpr hinput
    omega
  rw [hloop, hlen, splitLoop, if_neg hinput]
  cases hcut : Cut.cut sep input with
  | none => rfl
  | some x =>
    have hlt := Cut.length_after_lt hsep hcut
    have hrest : splitLoop sep (input.length - 1) x.2 = split x.2 sep := by
      rw [hloop]
      exact splitLoop_fuel hsep (by omega) le_rfl
    simp only [hrest]

@[simp] theorem split_nil (hsep : sep ≠ []) : split [] sep = [] := by
  simp [split, hsep, splitLoop]

theorem split_eq_self (hsep : sep ≠ []) (hinput : input ≠ []) (h : ¬sep <:+: input) : split input sep = [input] := by
  rw [split_eq hsep hinput, Cut.cut_eq_none.mpr h]

/-- Behind a piece without the first character of the separator, the loop finds just that separator. -/
theorem split_append {c : Char} (hpiece : c ∉ piece) (hne : piece ≠ []) (sep rest : Text) :
    split (piece ++ c :: sep ++ rest) (c :: sep) = piece :: split rest (c :: sep) := by
  rw [split_eq (List.cons_ne_nil _ _) (by simp), Cut.cut_of_notMem hpiece]
  exact if_pos hne

theorem split_append_char {c : Char} (hpiece : c ∉ piece) (hne : piece ≠ []) (rest : Text) :
    split (piece ++ c :: rest) [c] = piece :: split rest [c] := by
  simpa using split_append hpiece hne [] rest

theorem split_append_left (hsep : sep ≠ []) : split (sep ++ rest) sep = split rest sep := by
  have hfirst : Cut.First sep (sep ++ rest) [] rest := ⟨rfl, fun _ _ _ => Nat.zero_le _⟩
  rw [split_eq hsep (by simp [hsep]), Cut.cut_eq_some.mpr hfirst]
  exact if_neg (not_not.mpr rfl)

/-- `split` gives the pieces that are not empty. -/
theorem split_eq_filter (hsep : sep ≠ []) {ps : List Text} (h : Cut.Pieces sep input ps) :
    split input sep = ps.filter (· ≠ []) := by
  induction h with
  | @last s hnot =>
    by_cases hs : s = []
    · simp [hs, hsep]
    · rw [split_eq_self hsep hs hnot, List.filter_cons_of_pos (by simpa using hs), List.filter_nil]
  | @cons s before after ps hfirst _ ih =>
    have hs : s ≠ [] := by
      rw [hfirst.eq]
      simp [hsep]
    rw [split_eq hsep hs, Cut.cut_eq_some.mpr hfirst]
    by_cases hbefore : before = []
    · rw [List.filter_cons_of_neg (by simpa using hbefore), ← ih]
      exact if_neg (not_not.mpr hbefore)
    · rw [List.filter_cons_of_pos (by simpa using hbefore), ← ih]
      exact if_pos hbefore

/-- No piece is empty, and none contains the separator. -/
theorem mem_split (hsep : sep ≠ []) (h : piece ∈ split input sep) : piece ≠ [] ∧ ¬sep <:+: piece := by
  obtain ⟨ps, hps⟩ := Cut.exists_pieces hsep input
  rw [split_eq_filter hsep hps] at h
  obtain ⟨hmem, hne⟩ := List.mem_filter.mp h
  exact ⟨of_decide_eq_true hne, hps.not_infix hsep hmem⟩

theorem infix_of_mem_split (hsep : sep ≠ []) (h : piece ∈ split input sep) : piece <:+: input := by
  obtain ⟨ps, hps⟩ := Cut.exists_pieces hsep input
  rw [split_eq_filter hsep hps] at h
  exact hps.infix (List.mem_filter.mp h).1

end

/-! ### Numbers -/

section
variable {blanks sgn digits rest s : Text}

theorem not_isSpace_of_isDigit {c : Char} (h : c.isDigit = true) : isSpace c = false := by
  by_contra hspace
  simp only [isSpace, Bool.not_eq_false, Bool.or_eq_true, decide_eq_true_eq] at hspace
  rcases hspace with ((((rfl | rfl) | rfl) | rfl) | rfl) | rfl <;> cases h

theorem sign_digit {c : Char} (h : c.isDigit = true) : sign (c :: s) = (false, c :: s) := by
  unfold sign
  split
  · rename_i heq
    cases heq
    cases h
  · rename_i heq
    cases heq
    cases h
  · rfl

theorem dropWhile_blanks (hblanks : ∀ c ∈ blanks, isSpace c = true) (h : ∀ c ∈ s.head?, isSpace c = false) :
    (blanks ++ s).dropWhile isSpace = s := by
  rw [List.dropWhile_append_of_pos hblanks]
  cases s with
  | nil => rfl
  | cons c s => rw [List.dropWhile_cons_of_neg (by simp [h c rfl])]

theorem takeWhile_digits (hdigits : ∀ c ∈ digits, c.isDigit = true) (hrest : ∀ c ∈ rest.head?, c.isDigit = false) :
    (digits ++ rest).takeWhile Char.isDigit = digits := by
  rw [List.takeWhile_append_of_pos hdigits]
  cases rest with
  | nil => simp
  | cons c rest => simp [hrest c rfl]

theorem stoull_append (hblanks : ∀ c ∈ blanks, isSpace c = true) (hsgn : sgn = [] ∨ sgn = ['-'] ∨ sgn = ['+'])
    (hne : digits ≠ []) (hdigits : ∀ c ∈ digits, c.isDigit = true) (hrest : ∀ c ∈ rest.head?, c.isDigit = false) :
    stoull (blanks ++ (sgn ++ (digits ++ rest))) =
      if 2 ^ 64 ≤ Nat.ofDigitChars 10 digits 0 then .error .outOfRange
      else if sgn = ['-'] then .ok (-.ofNat (Nat.ofDigitChars 10 digits 0))
      else .ok (.ofNat (Nat.ofDigitChars 10 digits 0)) := by
  obtain ⟨d, ds, rfl⟩ := List.exists_cons_of_ne_nil hne
  have hd : d.isDigit = true := hdigits d (List.mem_cons_self ..)
  have hhead : ∀ c ∈ (sgn ++ (d :: ds ++ rest)).head?, isSpace c = false := by
    intro c hc
    rcases hsgn with rfl | rfl | rfl
    · cases hc
      exact not_isSpace_of_isDigit hd
    · cases hc
      rfl
    · cases hc
      rfl
  have hsign : sign (sgn ++ (d :: ds ++ rest)) = (decide (sgn = ['-']), d :: ds ++ rest) := by
    rcases hsgn with rfl | rfl | rfl
    · exact sign_digit hd
    · rfl
    · rfl
  simp only [stoull, dropWhile_blanks hblanks hhead, hsign, takeWhile_digits hdigits hrest, if_neg hne,
    decide_eq_true_eq]

theorem isDigit_of_mem_ofUInt64 {n : UInt64} {c : Char} (h : c ∈ ofUInt64 n) : c.isDigit = true :=
  Nat.isDigit_of_mem_toDigits (by decide) (by decide) h

@[simp] theorem stoull_ofUInt64 (n : UInt64) : stoull (ofUInt64 n) = .ok n := by
  have hlt : ¬18446744073709551616 ≤ n.toNat := Nat.not_le.mpr n.toNat_lt
  have hdigits : ∀ c ∈ ofUInt64 n, c.isDigit = true := fun c hc => isDigit_of_mem_ofUInt64 hc
  have h : stoull ([] ++ ([] ++ (ofUInt64 n ++ []))) = _ :=
    stoull_append (fun _ hc => by cases hc) (Or.inl rfl) Nat.toDigits_ne_nil hdigits fun _ hc => by cases hc
  simpa [ofUInt64, hlt] using h

end

/-! ### Strings in C -/

section
variable {s t : Text}

theorem nul_notMem_cString (s : Text) : '\x00' ∉ s.cString := fun h => by
  simpa using List.mem_takeWhile_imp h

theorem cString_of_not_mem (h : '\x00' ∉ s) : s.cString = s := by
  rw [cString, List.takeWhile_eq_self_iff]
  intro c hc
  simpa using fun heq : c = '\x00' => h (heq ▸ hc)

/-- A string is what C sees of it, and then nothing or a NUL and more. -/
theorem exists_eq_cString_append (s : Text) : ∃ rest, s = s.cString ++ rest ∧ (rest = [] ∨ ∃ t, rest = '\x00' :: t) := by
  refine ⟨s.dropWhile (· ≠ '\x00'), List.takeWhile_append_dropWhile.symm, ?_⟩
  cases hrest : s.dropWhile (· ≠ '\x00') with
  | nil => exact Or.inl rfl
  | cons c t =>
    have hnul := List.head?_dropWhile_not (· ≠ '\x00') s
    rw [hrest] at hnul
    obtain rfl : c = '\x00' := by simpa using hnul
    exact Or.inr ⟨t, rfl⟩

theorem cString_append (s t : Text) : (s ++ t).cString = s.cString ++ if '\x00' ∈ s then [] else t.cString := by
  have happend : (s ++ t).cString = if s.cString.length = s.length then s ++ t.cString else s.cString :=
    List.takeWhile_append
  rw [happend]
  by_cases hnul : '\x00' ∈ s
  · have hne : s.cString.length ≠ s.length := by
      intro hlen
      have hself : s.cString = s := (List.takeWhile_prefix _).eq_of_length hlen
      exact nul_notMem_cString s (hself.symm ▸ hnul)
    rw [if_neg hne, if_pos hnul, List.append_nil]
  · rw [cString_of_not_mem hnul, if_pos rfl, if_neg hnul]

end

end Text
end FiveStones
