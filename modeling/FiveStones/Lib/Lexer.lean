import Mathlib.Data.List.Infix

/-! The tokens of an SQL statement as MySQL reads them, one character after the other: words, signs, comments,
and strings with doubled quotes and backslash escapes. Executable comments are left out: each block comment
is one that says nothing. -/

namespace FiveStones

namespace Lexer

/-- A keyword, a name or a number; a string, by its value; a name in backquotes; or a sign. -/
inductive Token
  | word (w : List Char)
  | literal (value : List Char)
  | name (value : List Char)
  | sign (c : Char)
  deriving DecidableEq, Repr

/-- Where the reader stands. A quote that ends a string may still turn out to be a doubled one. -/
inductive Mode
  | between
  | word (w : List Char)
  | quoted (q : Char) (v : List Char)
  | escaped (q : Char) (v : List Char)
  | closing (q : Char) (v : List Char)
  | dash
  | dashes
  | slash
  | line
  | block
  | star
  deriving DecidableEq, Repr

def isBlank (c : Char) : Bool := c = ' ' || c = '\t' || c = '\n' || c = '\x0b' || c = '\x0c' || c = '\r'

def isWordChar (c : Char) : Bool := c.isAlphanum || c = '_' || c = '$' || 128 ≤ c.toNat

def isQuote (c : Char) : Bool := c = '\'' || c = '"' || c = '`'

/-- What a backslash and `c` stand for in a string. -/
def unescape (c : Char) : List Char :=
  if c = '0' then ['\x00']
  else if c = 'b' then ['\x08']
  else if c = 'n' then ['\n']
  else if c = 'r' then ['\r']
  else if c = 't' then ['\t']
  else if c = 'Z' then ['\x1a']
  else if c = '%' ∨ c = '_' then ['\\', c]
  else [c]

def Token.ofQuoted (q : Char) (v : List Char) : Token := if q = '`' then .name v else .literal v

namespace Mode

/-- A character outside of words, strings and comments. -/
def start (c : Char) : Mode × List Token :=
  if isBlank c then (between, [])
  else if isWordChar c then (word [c], [])
  else if isQuote c then (quoted c [], [])
  else if c = '#' then (line, [])
  else if c = '-' then (dash, [])
  else if c = '/' then (slash, [])
  else (between, [.sign c])

/-- The same, after tokens that end before it. -/
def startAfter (ts : List Token) (c : Char) : Mode × List Token := ((start c).1, ts ++ (start c).2)

/-- One character: the tokens that it ends. -/
def step : Mode → Char → Mode × List Token
  | between, c => start c
  | word w, c => if isWordChar c then (word (w ++ [c]), []) else startAfter [.word w] c
  | quoted q v, c =>
    if c = q then (closing q v, []) else if c = '\\' ∧ q ≠ '`' then (escaped q v, []) else (quoted q (v ++ [c]), [])
  | escaped q v, c => (quoted q (v ++ unescape c), [])
  | closing q v, c => if c = q then (quoted q (v ++ [q]), []) else startAfter [.ofQuoted q v] c
  | dash, c => if c = '-' then (dashes, []) else startAfter [.sign '-'] c
  -- Two dashes begin a comment only before a blank.
  | dashes, c =>
    if c = '\n' then (between, [])
    else if isBlank c then (line, [])
    else if c = '-' then (dashes, [.sign '-'])
    else startAfter [.sign '-', .sign '-'] c
  | slash, c => if c = '*' then (block, []) else startAfter [.sign '/'] c
  | line, c => if c = '\n' then (between, []) else (line, [])
  | block, c => if c = '*' then (star, []) else (block, [])
  | star, c => if c = '/' then (between, []) else if c = '*' then (star, []) else (block, [])

/-- The tokens that the end of the statement ends. A string or a block comment must not be open there. -/
def finish : Mode → Option (List Token)
  | between | line | dashes => some []
  | word w => some [.word w]
  | closing q v => some [.ofQuoted q v]
  | dash => some [.sign '-']
  | slash => some [.sign '/']
  | quoted .. | escaped .. | block | star => none

def run : Mode → List Char → Mode × List Token
  | m, [] => (m, [])
  | m, c :: s => ((run (m.step c).1 s).1, (m.step c).2 ++ (run (m.step c).1 s).2)

/-- The tokens of a text, from a mode on. -/
def reads (m : Mode) (s : List Char) : Option (List Token) := (m.run s).1.finish.map ((m.run s).2 ++ ·)

end Mode

/-- The tokens of a statement. -/
def lex (s : List Char) : Option (List Token) := Mode.between.reads s

namespace Mode
variable {m : Mode} {q c d : Char} {v s rest : List Char} {ts : List Token}

@[simp] theorem reads_nil (m : Mode) : m.reads [] = m.finish := by
  cases h : m.finish <;> simp [reads, run, h]

theorem reads_cons (m : Mode) (c : Char) (s : List Char) :
    m.reads (c :: s) = ((m.step c).1.reads s).map ((m.step c).2 ++ ·) := by
  simp [reads, run, Function.comp_def]

theorem reads_append (m : Mode) (p s : List Char) : m.reads (p ++ s) = ((m.run p).1.reads s).map ((m.run p).2 ++ ·) := by
  induction p generalizing m with
  | nil => simp [run]
  | cons c p ih => simp [reads_cons, run, ih, Function.comp_def]

/-- A quote that another character follows ends its string there. -/
theorem reads_closing (h : c ≠ q) : (closing q v).reads (c :: s) = (between.reads (c :: s)).map (.ofQuoted q v :: ·) := by
  simp [reads_cons, step, h, startAfter, Function.comp_def]

/-- The string that the reader is in is the next token. -/
theorem reads_string (hm : m = quoted q v ∨ m = escaped q v ∨ m = closing q v) (h : m.reads s = some ts) :
    ∃ w more, ts = .ofQuoted q (v ++ w) :: more := by
  induction s generalizing m v ts with
  | nil =>
    rcases hm with rfl | rfl | rfl
    · simp [finish] at h
    · simp [finish] at h
    · obtain rfl : [.ofQuoted q v] = ts := by simpa [finish] using h
      exact ⟨[], [], by simp⟩
  | cons c s ih =>
    rw [reads_cons] at h
    rcases hm with rfl | rfl | rfl
    · simp only [step] at h
      split at h
      · exact ih (Or.inr (Or.inr rfl)) (by simpa using h)
      split at h
      · exact ih (Or.inr (Or.inl rfl)) (by simpa using h)
      · obtain ⟨w, more, rfl⟩ := ih (Or.inl rfl) (by simpa using h)
        exact ⟨c :: w, more, by simp⟩
    · obtain ⟨w, more, rfl⟩ := ih (Or.inl rfl) (by simpa [step] using h)
      exact ⟨unescape c ++ w, more, by simp⟩
    · simp only [step] at h
      split at h
      · obtain ⟨w, more, rfl⟩ := ih (Or.inl rfl) (by simpa using h)
        exact ⟨q :: w, more, by simp⟩
      · obtain ⟨more, -, rfl⟩ := Option.map_eq_some_iff.mp h
        exact ⟨[], (start c).2 ++ more, by simp [startAfter]⟩

end Mode

/-! ### Plain text between quotes -/

/-- A text that stands for itself between single quotes: it has none of them, and a backslash only before `%`
    or `_`, where it is kept. -/
structure Plain (s : List Char) : Prop where
  quote : '\'' ∉ s
  escape : ∀ t, '\\' :: t <:+ s → t.head? = some '%' ∨ t.head? = some '_'

theorem plain_nil : Plain [] := ⟨by simp, by simp⟩

theorem plain_cons {c : Char} {s : List Char} (hquote : c ≠ '\'') (hescape : c ≠ '\\') : Plain (c :: s) ↔ Plain s := by
  constructor
  · rintro ⟨hq, he⟩
    exact ⟨fun h => hq (List.mem_cons_of_mem c h), fun t ht => he t (ht.trans (List.suffix_cons c s))⟩
  · rintro ⟨hq, he⟩
    refine ⟨?_, fun t ht => ?_⟩
    · rintro (_ | ⟨_, h⟩)
      · exact hquote rfl
      · exact hq h
    · rcases List.suffix_cons_iff.mp ht with heq | ht
      · exact absurd (List.cons.inj heq).1.symm hescape
      · exact he t ht

theorem plain_escape {c : Char} {s : List Char} : Plain ('\\' :: c :: s) ↔ (c = '%' ∨ c = '_') ∧ Plain s := by
  have hkept : c = '%' ∨ c = '_' → (Plain (c :: s) ↔ Plain s) := by
    rintro (rfl | rfl)
    · exact plain_cons (by decide) (by decide)
    · exact plain_cons (by decide) (by decide)
  constructor
  · rintro ⟨hq, he⟩
    have hc : c = '%' ∨ c = '_' := by simpa using he (c :: s) List.suffix_rfl
    exact ⟨hc, (hkept hc).mp ⟨fun h => hq (List.mem_cons_of_mem _ h), fun t ht => he t (ht.trans (List.suffix_cons _ _))⟩⟩
  · rintro ⟨hc, h⟩
    obtain ⟨hq, he⟩ := (hkept hc).mpr h
    refine ⟨?_, fun t ht => ?_⟩
    · rintro (_ | ⟨_, h⟩)
      exact hq h
    · rcases List.suffix_cons_iff.mp ht with heq | ht
      · obtain rfl := (List.cons.inj heq).2
        simpa using hc
      · exact he t ht

/-- What a backslash and `c` stand for is one character, or the two themselves. -/
theorem unescape_cases (c : Char) : (unescape c).length = 1 ∨ (unescape c = ['\\', c] ∧ (c = '%' ∨ c = '_')) := by
  unfold unescape
  repeat' split
  all_goals simp_all

/-- A character that is not special in strings, and that no escape reads or gives. -/
def Inert (d : Char) : Prop :=
  d ∉ ['\'', '\\', '0', 'b', 'n', 'r', 't', 'Z', '\x00', '\x08', '\n', '\r', '\t', '\x1a']

instance : DecidablePred Inert := fun _ => inferInstanceAs (Decidable (_ ∉ _))

theorem Inert.ne_quote {d : Char} (h : Inert d) : d ≠ '\'' := fun heq => h (by simp [heq])

theorem Inert.ne_escape {d : Char} (h : Inert d) : d ≠ '\\' := fun heq => h (by simp [heq])

theorem Inert.count_unescape {d : Char} (h : Inert d) (c : Char) : (unescape c).count d = [c].count d := by
  simp only [Inert, List.mem_cons, List.not_mem_nil, or_false, not_or] at h
  obtain ⟨-, hescape, h0, hb, hn, hr, ht, hZ, h0', hb', hn', hr', ht', hZ'⟩ := h
  unfold unescape
  repeat' split
  all_goals simp_all [List.count_cons, Ne.symm]

namespace Mode
variable {c d : Char} {v rest s w : List Char} {ts more : List Token}

theorem reads_quote (v rest : List Char) : (quoted '\'' v).reads ('\'' :: rest) = (closing '\'' v).reads rest := by
  simp [reads_cons, step]

theorem reads_doubled (v rest : List Char) : (closing '\'' v).reads ('\'' :: rest) = (quoted '\'' (v ++ ['\''])).reads rest := by
  simp [reads_cons, step]

theorem reads_escape (v : List Char) (c : Char) (rest : List Char) :
    (quoted '\'' v).reads ('\\' :: c :: rest) = (quoted '\'' (v ++ unescape c)).reads rest := by
  simp [reads_cons, step]

theorem reads_char (hquote : c ≠ '\'') (hescape : c ≠ '\\') :
    (quoted '\'' v).reads (c :: rest) = (quoted '\'' (v ++ [c])).reads rest := by
  simp [reads_cons, step, hquote, hescape]

/-- How the string that a text is read as compares with the text, when a quote and `d` follow: it is shorter; or it
    is the text itself, which is plain; or it takes in `d`, and so has it more often in front than the text. -/
inductive Compares (d : Char) (rest s w : List Char) (more : List Token) : Prop
  | shorter : w.length < s.length → Compares d rest s w more
  | same : w = s → Plain s → between.reads (d :: rest) = some more → Compares d rest s w more
  | beyond {p t : List Char} : w = p ++ d :: t → p.length ≤ s.length → p.count d = s.count d → Compares d rest s w more

theorem Compares.char (hquote : c ≠ '\'') (hescape : c ≠ '\\') (h : Compares d rest s w more) :
    Compares d rest (c :: s) (c :: w) more := by
  cases h with
  | shorter hlt => exact .shorter (by simpa using hlt)
  | same heq hplain hmore => exact .same (by rw [heq]) ((plain_cons hquote hescape).mpr hplain) hmore
  | @beyond p t heq hlen hcount =>
    exact .beyond (p := c :: p) (t := t) (by simp [heq]) (by simpa using hlen) (by simp [List.count_cons, hcount])

theorem Compares.doubled (hd : Inert d) (h : Compares d rest s w more) :
    Compares d rest ('\'' :: '\'' :: s) ('\'' :: w) more := by
  cases h with
  | shorter hlt => exact .shorter (by simp; omega)
  | same heq _ _ => exact .shorter (by simp [heq])
  | @beyond p t heq hlen hcount =>
    refine .beyond (p := '\'' :: p) (t := t) (by simp [heq]) (by simp; omega) ?_
    simp [List.count_cons_of_ne hd.ne_quote.symm, hcount]

theorem Compares.escape (hd : Inert d) (h : Compares d rest s w more) (c : Char) :
    Compares d rest ('\\' :: c :: s) (unescape c ++ w) more := by
  cases h with
  | shorter hlt =>
    refine .shorter ?_
    rcases unescape_cases c with hone | ⟨htwo, -⟩
    · simp [hone]
      omega
    · simp [htwo, hlt]
  | same heq hplain hmore =>
    subst heq
    rcases unescape_cases c with hone | ⟨htwo, hc⟩
    · exact .shorter (by simp only [List.length_append, List.length_cons]; omega)
    · exact .same (by simp [htwo]) (plain_escape.mpr ⟨hc, hplain⟩) hmore
  | @beyond p t heq hlen hcount =>
    refine .beyond (p := unescape c ++ p) (t := t) (by simp [heq]) ?_ ?_
    · rcases unescape_cases c with hone | ⟨htwo, -⟩
      · simp [hone]
        omega
      · simp [htwo, hlen]
    · rw [List.count_append, hd.count_unescape, hcount, ← List.count_append, List.count_cons_of_ne hd.ne_escape.symm]
      rfl

theorem reads_body (hd : Inert d) {s : List Char} (h : (quoted '\'' v).reads (s ++ '\'' :: d :: rest) = some ts) :
    ∃ w more, ts = .literal (v ++ w) :: more ∧ Compares d rest s w more := by
  induction hn : s.length using Nat.strongRecOn generalizing s v with
  | ind n ih =>
    subst hn
    -- The quote after the text is taken into the string, as the second one of two or after a backslash.
    have hbeyond : (quoted '\'' (v ++ ['\''])).reads (d :: rest) = some ts → ∀ c, c ≠ d →
        ∃ w more, ts = .literal (v ++ w) :: more ∧ Compares d rest [c] w more := by
      intro h c hc
      rw [reads_char hd.ne_quote hd.ne_escape] at h
      obtain ⟨w, more, rfl⟩ := reads_string (Or.inl rfl) h
      refine ⟨'\'' :: d :: w, more, by simp [Token.ofQuoted], .beyond (p := ['\'']) rfl le_rfl ?_⟩
      rw [List.count_singleton, List.count_singleton]
      simp [hc, hd.ne_quote.symm]
    cases s with
    | nil =>
      rw [List.nil_append, reads_quote, reads_closing hd.ne_quote] at h
      obtain ⟨more, hmore, rfl⟩ := Option.map_eq_some_iff.mp h
      exact ⟨[], more, by simp [Token.ofQuoted], .same rfl plain_nil hmore⟩
    | cons c s =>
      by_cases hescape : c = '\\'
      · subst hescape
        cases s with
        | nil =>
          rw [List.cons_append, List.nil_append, reads_escape] at h
          exact hbeyond (by simpa [unescape] using h) _ hd.ne_escape.symm
        | cons c s =>
          rw [List.cons_append, List.cons_append, reads_escape] at h
          obtain ⟨w, more, rfl, hw⟩ := ih s.length (by simp only [List.length_cons]; omega) h rfl
          exact ⟨unescape c ++ w, more, by simp, hw.escape hd c⟩
      by_cases hquote : c = '\''
      · subst hquote
        rw [List.cons_append, reads_quote] at h
        cases s with
        | nil =>
          rw [List.nil_append, reads_doubled] at h
          exact hbeyond h _ hd.ne_quote.symm
        | cons c s =>
          by_cases hdouble : c = '\''
          · subst hdouble
            rw [List.cons_append, reads_doubled] at h
            obtain ⟨w, more, rfl, hw⟩ := ih s.length (by simp only [List.length_cons]; omega) h rfl
            exact ⟨'\'' :: w, more, by simp, hw.doubled hd⟩
          · rw [List.cons_append, reads_closing hdouble] at h
            obtain ⟨more, -, rfl⟩ := Option.map_eq_some_iff.mp h
            exact ⟨[], more, by simp [Token.ofQuoted], .shorter (by simp)⟩
      · rw [List.cons_append, reads_char hquote hescape] at h
        obtain ⟨w, more, rfl, hw⟩ := ih s.length (by simp only [List.length_cons]; omega) h rfl
        exact ⟨c :: w, more, by simp, hw.char hquote hescape⟩

/-- A plain text between quotes is read as itself. -/
theorem reads_plain (hd : d ≠ '\'') {s : List Char} (h : Plain s) :
    (quoted '\'' v).reads (s ++ '\'' :: d :: rest) = (between.reads (d :: rest)).map (.literal (v ++ s) :: ·) := by
  induction hn : s.length using Nat.strongRecOn generalizing s v with
  | ind n ih =>
    subst hn
    cases s with
    | nil => simp [reads_quote, reads_closing hd, Token.ofQuoted]
    | cons c s =>
      have hquote : c ≠ '\'' := fun heq => h.quote (by simp [heq])
      by_cases hescape : c = '\\'
      · subst hescape
        cases s with
        | nil => exact absurd (h.escape [] List.suffix_rfl) (by simp)
        | cons c s =>
          obtain ⟨hc, hs⟩ := plain_escape.mp h
          have hkept : unescape c = ['\\', c] := by
            rcases hc with rfl | rfl <;> rfl
          rw [List.cons_append, List.cons_append, reads_escape, ih s.length (by simp only [List.length_cons]; omega) hs rfl, hkept]
          simp
      · rw [List.cons_append, reads_char hquote hescape, ih s.length (by simp only [List.length_cons]; omega) ((plain_cons hquote hescape).mp h) rfl]
        simp

end Mode

end Lexer
end FiveStones
