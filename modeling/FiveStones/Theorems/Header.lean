import FiveStones.Theorems.SessionStep

/-! The `Cookie` header, from the text that a client sends to the number that the session is looked up by. -/

namespace FiveStones

namespace Text
variable {s : Text}

/-- The text starts with a number of 64 bits: after any blanks and a sign there is a digit, and the digits that
    follow each other there stand for a number below 2^64. -/
def Numeric (s : Text) : Prop :=
  ∃ blanks sgn digits rest : Text, s = blanks ++ (sgn ++ (digits ++ rest)) ∧ (∀ c ∈ blanks, isSpace c = true) ∧
    (sgn = [] ∨ sgn = ['-'] ∨ sgn = ['+']) ∧ digits ≠ [] ∧ (∀ c ∈ digits, c.isDigit = true) ∧
    (∀ c ∈ rest.head?, c.isDigit = false) ∧ Nat.ofDigitChars 10 digits 0 < 2 ^ 64

theorem sign_append (s : Text) : ∃ sgn : Text, s = sgn ++ (sign s).2 ∧ (sgn = [] ∨ sgn = ['-'] ∨ sgn = ['+']) := by
  unfold sign
  split
  · exact ⟨['-'], rfl, by simp⟩
  · exact ⟨['+'], rfl, by simp⟩
  · exact ⟨[], rfl, by simp⟩

theorem stoull_isOk : (∃ n, stoull s = .ok n) ↔ Numeric s := by
  constructor
  · rintro ⟨n, h⟩
    obtain ⟨sgn, hsign, hsgn⟩ := sign_append (s.dropWhile isSpace)
    have hhead : ∀ c ∈ ((sign (s.dropWhile isSpace)).2.dropWhile Char.isDigit).head?, c.isDigit = false := by
      intro c hc
      have hnot := List.head?_dropWhile_not Char.isDigit (sign (s.dropWhile isSpace)).2
      rw [Option.mem_def.mp hc] at hnot
      simpa using hnot
    refine ⟨s.takeWhile isSpace, sgn, (sign (s.dropWhile isSpace)).2.takeWhile Char.isDigit,
      (sign (s.dropWhile isSpace)).2.dropWhile Char.isDigit, ?_, List.all_eq_true.mp List.all_takeWhile, hsgn, ?_,
      List.all_eq_true.mp List.all_takeWhile, hhead, ?_⟩
    · rw [List.takeWhile_append_dropWhile, ← hsign, List.takeWhile_append_dropWhile]
    · intro hnil
      simp [stoull, hnil] at h
    · by_contra hlarge
      simp only [stoull] at h
      split at h
      · cases h
      · rw [if_pos (Nat.not_lt.mp hlarge)] at h
        cases h
  · rintro ⟨blanks, sgn, digits, rest, rfl, hblanks, hsgn, hne, hdigits, hrest, hlt⟩
    rw [stoull_append hblanks hsgn hne hdigits hrest, if_neg (Nat.not_le.mpr hlt)]
    split
    · exact ⟨_, rfl⟩
    · exact ⟨_, rfl⟩

end Text

/-! ### Which texts reach the number -/

/-- The value of a cookie is not empty, and has no `=` and no `; ` in it. -/
theorem getCookieVal_some {cookie key v : Text} (h : getCookieVal cookie key = some v) :
    v ≠ [] ∧ '=' ∉ v ∧ ¬"; ".toList <:+: v := by
  obtain ⟨str, hstr, h⟩ := List.exists_of_findSome?_eq_some h
  split at h
  · rename_i k w hkv
    split at h
    · obtain rfl := Option.some.inj h
      have hw : w ∈ Text.split str ['='] := by
        rw [hkv]
        exact List.mem_cons_of_mem _ (List.mem_singleton_self w)
      obtain ⟨hne, hfree⟩ := Text.mem_split (by decide) hw
      refine ⟨hne, fun hmem => hfree ?_, fun hsep => (Text.mem_split (by decide) hstr).2 ?_⟩
      · obtain ⟨before, after, rfl⟩ := List.append_of_mem hmem
        exact ⟨before, after, by simp⟩
      · exact hsep.trans (Text.infix_of_mem_split (by decide) hw)
    · cases h
  · cases h

/-- Every such text is the value that some header gives. -/
theorem getCookieVal_ssid {v : Text} (hne : v ≠ []) (heq : '=' ∉ v) (hsep : ¬"; ".toList <:+: v) :
    getCookieVal ("SSID=".toList ++ v) "SSID".toList = some v := by
  have hwhole : ¬"; ".toList <:+: "SSID=".toList ++ v := by
    simpa [List.infix_cons_iff] using hsep
  have hfree : ¬['='] <:+: v := fun hcut => heq (hcut.subset (List.mem_singleton_self _))
  have hkv : Text.split ("SSID=".toList ++ v) ['='] = ["SSID".toList, v] := by
    have hpair : "SSID=".toList ++ v = "SSID".toList ++ '=' :: v := rfl
    rw [hpair, Text.split_append_char (by decide) (by decide), Text.split_eq_self (by decide) hne hfree]
  rw [getCookieVal, Text.split_eq_self (by decide) (by simp) hwhole]
  simp only [List.findSome?_cons, hkv, ↓reduceIte]

/-- The header names no `SSID`, or one that starts with a number of 64 bits. -/
def Readable (cookie : Text) : Prop := ∀ v, getCookieVal cookie "SSID".toList = some v → Text.Numeric v

/-! ### The lookup -/

/-- What the callers go on with: a session that is there, or the answer to log in again. -/
def Found.Answers (st : Sessions) (optypeForErr : String) : Found → Prop
  | .session ssid uid => st.userOf ssid = some uid
  | .loginAgain resp => resp.get "optype" = .str optypeForErr ∧ resp.get "result" = .bool false

namespace Sessions
variable {st st' : Sessions} {up : RedisUp} {cookie : Text} {optype : String} {found : Found}

theorem refuse_answers (st : Sessions) (optype reason : String) : Found.Answers st optype (.loginAgain (refuse optype reason)) :=
  ⟨rfl, rfl⟩

theorem getSessionByCookie_answers (h : st.getSessionByCookie up cookie optype = .ok (st', found)) :
    found.Answers st' optype := by
  unfold getSessionByCookie at h
  split at h
  · cases h
    exact refuse_answers _ _ _
  split at h
  · cases h
    exact refuse_answers _ _ _
  · obtain ⟨ssid, -, h⟩ := ok_of_bind h
    split at h
    · rename_i hfind
      cases h
      exact userOf_findSession hfind
    · cases h
      exact refuse_answers _ _ _

/-- A header is answered just when it is readable, whatever the sessions and the session cache are like. On
    any other an exception escapes. -/
theorem answers_iff_readable (st : Sessions) (up : RedisUp) (cookie : Text) (optype : String) :
    (∃ st' found, st.getSessionByCookie up cookie optype = .ok (st', found) ∧ found.Answers st' optype) ↔
      Readable cookie := by
  constructor
  · rintro ⟨st', found, h, -⟩ v hv
    have hne : cookie ≠ [] := by
      rintro rfl
      simp [getCookieVal] at hv
    simp only [getSessionByCookie, if_neg hne, hv] at h
    obtain ⟨ssid, hssid, -⟩ := ok_of_bind h
    exact Text.stoull_isOk.mp ⟨ssid, hssid⟩
  · intro hread
    have hok : ∃ x, st.getSessionByCookie up cookie optype = .ok x := by
      unfold getSessionByCookie
      split
      · exact ⟨_, rfl⟩
      split
      · exact ⟨_, rfl⟩
      · rename_i v hv
        obtain ⟨ssid, hssid⟩ := Text.stoull_isOk.mpr (hread v hv)
        simp only [hssid, bind, Except.bind]
        split
        · exact ⟨_, rfl⟩
        · exact ⟨_, rfl⟩
    obtain ⟨⟨st', found⟩, hok⟩ := hok
    exact ⟨st', found, hok, getSessionByCookie_answers hok⟩

/-- `SSID=x` throws. -/
theorem unreadable_header : ¬∀ st up cookie optype, ∃ st' found,
    getSessionByCookie st up cookie optype = .ok (st', found) ∧ found.Answers st' optype := by
  intro hall
  obtain ⟨st', found, h, -⟩ := hall (start false) .all "SSID=x".toList "hall_ready"
  have herror : (start false).getSessionByCookie .all "SSID=x".toList "hall_ready" = .error .invalidArgument := rfl
  cases herror.symm.trans h

end Sessions
end FiveStones
