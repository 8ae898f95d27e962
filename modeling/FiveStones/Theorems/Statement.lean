import FiveStones.Account

/-! What MySQL reads where a text of a user stands in a statement. -/

namespace FiveStones

namespace Sql
open Lexer Lexer.Mode
variable {arg rest pre : Text} {d : Char} {more before : List Token}

/-- A text that MySQL reads as it is: without a NUL, and plain between quotes. -/
def Intact (arg : Text) : Prop := '\x00' ∉ arg ∧ Plain arg

/-- The text that `sprintf` puts between quotes is read as one string with just that value, and the reading goes on
    after the quote, when the text is intact and only then. -/
theorem reads_arg (hd : Inert d) : (quoted '\'' []).reads (arg.cString ++ '\'' :: d :: rest) = some (.literal arg :: more) ↔
    Intact arg ∧ between.reads (d :: rest) = some more := by
  constructor
  · intro h
    obtain ⟨after, harg, hafter⟩ := Text.exists_eq_cString_append arg
    have hnul := Text.nul_notMem_cString arg
    generalize arg.cString = front at h harg hnul
    obtain ⟨w, more', heq, hw⟩ := reads_body hd h
    obtain ⟨hval, rfl⟩ := List.cons.inj heq
    obtain rfl : arg = w := Token.literal.inj hval
    cases hw with
    | shorter hlt =>
      rw [harg, List.length_append] at hlt
      omega
    | same heq hplain hmore => exact ⟨⟨heq ▸ hnul, heq ▸ hplain⟩, hmore⟩
    | @beyond p t heq hlen hcount =>
      -- The string begins with `p` and `d`, and also with the text up to its first NUL, which has `d` as often as `p`.
      exfalso
      rw [heq] at harg
      rcases Nat.lt_or_ge p.length front.length with hlt | hge
      · have hp : p ++ [d] <+: p ++ d :: t := ⟨t, by simp⟩
        have hfront : front <+: p ++ d :: t := ⟨after, harg.symm⟩
        have hshort : (p ++ [d]).length ≤ front.length := by
          rw [List.length_append, List.length_singleton]
          omega
        have hle := (List.prefix_of_prefix_length_le hp hfront hshort).sublist.count_le d
        rw [List.count_append, List.count_singleton_self] at hle
        omega
      · obtain ⟨rfl, hrest⟩ := List.append_inj harg (Nat.le_antisymm hlen hge)
        rcases hafter with rfl | ⟨t', rfl⟩
        · cases hrest
        · have hnul : d = '\x00' := (List.cons.inj hrest).1
          exact hd (by simp [hnul])
  · rintro ⟨⟨hnul, hplain⟩, hmore⟩
    rw [Text.cString_of_not_mem hnul, reads_plain hd.ne_quote hplain, hmore]
    rfl

/-- The tokens of a format, with a text for each string `'%s'`. -/
def fill : List Token → List Text → List Token
  | .literal v :: ts, arg :: args => if v = ['%', 's'] then .literal arg :: fill ts args else .literal v :: fill ts (arg :: args)
  | t :: ts, args => t :: fill ts args
  | [], _ => []

/-- The statement fits in its buffer with the NUL after it, and MySQL reads the tokens of the format, with the texts
    as its strings. -/
structure KeepsData (format : Text) (args : List Text) : Prop where
  fits : (sprintf format args).length + 1 ≤ sqlSize
  reads : ∃ ts, lex format = some ts ∧ lex (sprintf format args) = some (fill ts args)

/-- The texts are short enough for the format, and intact. -/
structure Safe (format : Text) (args : List Text) : Prop where
  short : format.length - 2 * args.length + (args.map List.length).sum + 1 ≤ sqlSize
  intact : ∀ arg ∈ args, Intact arg

theorem fill_nil (ts : List Token) : fill ts [] = ts := by
  induction ts with
  | nil => rfl
  | cons t ts ih => cases t <;> simp [fill, ih]

theorem fill_append {args : List Text} {ts : List Token} (h : .literal ['%', 's'] ∉ before) :
    fill (before ++ .literal ['%', 's'] :: ts) (arg :: args) = before ++ .literal arg :: fill ts args := by
  induction before with
  | nil => simp [fill]
  | cons t before ih =>
    obtain ⟨hne, hfree⟩ : .literal ['%', 's'] ≠ t ∧ .literal ['%', 's'] ∉ before := by simpa using h
    cases t with
    | literal v =>
      have hv : v ≠ ['%', 's'] := fun heq => hne (by rw [heq])
      simp [fill, hv, ih hfree]
    | word | name | sign => simp [fill, ih hfree]

/-- The texts can be read off a format with a string for each of them. -/
theorem fill_inj {ts : List Token} : ∀ {args args' : List Text}, args.length = args'.length →
    args.length ≤ ts.count (.literal ['%', 's']) → fill ts args = fill ts args' → args = args' := by
  induction ts with
  | nil =>
    intro args args' hlen hcount _
    obtain rfl := List.length_eq_zero_iff.mp (Nat.le_zero.mp hcount)
    exact (List.length_eq_zero_iff.mp hlen.symm).symm
  | cons t ts ih =>
    rintro (_ | ⟨arg, args⟩) (_ | ⟨arg', args'⟩) hlen hcount h
    · rfl
    · cases hlen
    · cases hlen
    · by_cases ht : t = .literal ['%', 's']
      · subst ht
        simp only [fill, ↓reduceIte, List.cons.injEq, Token.literal.injEq] at h
        rw [List.count_cons_self, List.length_cons] at hcount
        rw [h.1, ih (Nat.succ.inj hlen) (Nat.le_of_succ_le_succ hcount) h.2]
      · rw [List.count_cons_of_ne ht] at hcount
        refine ih hlen hcount ?_
        cases t with
        | literal v =>
          have hv : v ≠ ['%', 's'] := fun heq => ht (by rw [heq])
          simpa only [fill, hv, ↓reduceIte, List.cons.injEq, true_and] using h
        | word | name | sign => simpa only [fill, List.cons.injEq, true_and] using h

/-- The format has `n` strings `'%s'` in it, and after each of them a character that ends the string. -/
inductive Holes : Nat → Text → Prop
  | none {format : Text} : '%' ∉ format → (between.reads format).isSome → Holes 0 format
  | hole {n : Nat} {pre rest : Text} {d : Char} : '%' ∉ pre → (between.run pre).1 = quoted '\'' [] →
      .literal ['%', 's'] ∉ (between.run pre).2 → Inert d → d ≠ '%' → Holes n (d :: rest) →
      Holes (n + 1) (pre ++ '%' :: 's' :: '\'' :: d :: rest)

theorem sprintf_cons {c : Char} (h : c ≠ '%') (format : Text) (args : List Text) :
    sprintf (c :: format) args = c :: sprintf format args := by
  simp [sprintf, h]

theorem sprintf_append (h : '%' ∉ pre) (format : Text) (args : List Text) :
    sprintf (pre ++ format) args = pre ++ sprintf format args := by
  induction pre with
  | nil => rfl
  | cons c pre ih =>
    obtain ⟨hne, hfree⟩ : '%' ≠ c ∧ '%' ∉ pre := by simpa using h
    rw [List.cons_append, sprintf_cons hne.symm, ih hfree, List.cons_append]

theorem sprintf_hole (hpre : '%' ∉ pre) (hd : d ≠ '%') (args : List Text) :
    sprintf (pre ++ '%' :: 's' :: '\'' :: d :: rest) (arg :: args) =
      pre ++ (arg.cString ++ '\'' :: d :: sprintf rest args) := by
  rw [sprintf_append hpre, sprintf, sprintf_cons (by decide), sprintf_cons hd]

theorem Holes.sprintf_length {n : Nat} {format : Text} (h : Holes n format) : ∀ {args : List Text}, args.length = n →
    (sprintf format args).length + 2 * n = format.length + (args.map fun arg => arg.cString.length).sum := by
  induction h with
  | none hfree _ =>
    intro args hlen
    obtain rfl := List.length_eq_zero_iff.mp hlen
    have hself := sprintf_append hfree [] []
    rw [List.append_nil] at hself
    simp [hself, sprintf]
  | @hole n pre rest d hpre _ _ _ hd _ ih =>
    rintro (_ | ⟨arg, args⟩) hlen
    · cases hlen
    have hrest := ih (Nat.succ.inj hlen)
    rw [sprintf_cons hd] at hrest
    rw [sprintf_hole hpre hd, List.map_cons, List.sum_cons]
    simp only [List.length_append, List.length_cons] at hrest ⊢
    omega

/-- A hole is read as the string that it is. -/
theorem reads_hole {ts : List Token} (hmode : (between.run pre).1 = quoted '\'' []) (hinert : Inert d)
    (hts : between.reads (d :: rest) = some ts) : between.reads (pre ++ '%' :: 's' :: '\'' :: d :: rest) =
      some ((between.run pre).2 ++ .literal ['%', 's'] :: ts) := by
  have hintact : Intact ['%', 's'] :=
    ⟨by decide, (plain_cons (by decide) (by decide)).mpr ((plain_cons (by decide) (by decide)).mpr plain_nil)⟩
  rw [reads_append, hmode]
  exact congrArg _ ((reads_arg hinert).mpr ⟨hintact, hts⟩)

theorem Holes.reads {n : Nat} {format : Text} (h : Holes n format) : ∃ ts, between.reads format = some ts ∧
    ∀ args : List Text, args.length = n →
      (between.reads (sprintf format args) = some (fill ts args) ↔ ∀ arg ∈ args, Intact arg) := by
  induction h with
  | @none format hfree hsome =>
    obtain ⟨ts, hts⟩ := Option.isSome_iff_exists.mp hsome
    refine ⟨ts, hts, fun args hlen => ?_⟩
    obtain rfl := List.length_eq_zero_iff.mp hlen
    have hself := sprintf_append hfree [] []
    rw [List.append_nil] at hself
    simp [hself, sprintf, hts, fill_nil]
  | @hole n pre rest d hpre hmode hfree hinert hd _ ih =>
    obtain ⟨ts, hts, hargs⟩ := ih
    refine ⟨_, reads_hole hmode hinert hts, ?_⟩
    rintro (_ | ⟨arg, args⟩) hlen
    · cases hlen
    rw [sprintf_hole hpre hd, fill_append hfree, reads_append, hmode, List.forall_mem_cons, ← hargs args (Nat.succ.inj hlen),
      sprintf_cons hd, ← reads_arg hinert]
    simp

/-- The reading of a format has a string `'%s'` for each hole. -/
theorem Holes.le_count {n : Nat} {format : Text} (h : Holes n format) : ∀ {ts : List Token},
    between.reads format = some ts → n ≤ ts.count (.literal ['%', 's']) := by
  induction h with
  | none => exact fun _ => Nat.zero_le _
  | @hole n pre rest d hpre hmode hfree hinert hd hholes ih =>
    intro ts hts
    obtain ⟨ts', hts', -⟩ := hholes.reads
    rw [reads_hole hmode hinert hts'] at hts
    obtain rfl := Option.some.inj hts
    have hle := ih hts'
    rw [List.count_append, List.count_cons_self]
    omega

theorem Holes.two_mul_le {n : Nat} {format : Text} (h : Holes n format) : 2 * n ≤ format.length := by
  induction h with
  | none => exact Nat.zero_le _
  | hole _ _ _ _ _ _ ih =>
    simp only [List.length_append, List.length_cons] at ih ⊢
    omega

/-- A statement keeps the texts as data just when they are safe. -/
theorem Holes.keepsData_iff {n : Nat} {format : Text} {args : List Text} (h : Holes n format) (hlen : args.length = n) :
    KeepsData format args ↔ Safe format args := by
  have hle := h.two_mul_le
  obtain ⟨ts, hts, hargs⟩ := h.reads
  have hreads : (∃ ts, lex format = some ts ∧ lex (sprintf format args) = some (fill ts args)) ↔ ∀ arg ∈ args, Intact arg := by
    rw [← hargs args hlen]
    constructor
    · rintro ⟨ts', hts', h⟩
      obtain rfl := Option.some.inj (hts.symm.trans hts')
      exact h
    · exact fun h => ⟨ts, hts, h⟩
  have hlength := h.sprintf_length hlen
  have hwhole : (∀ arg ∈ args, Intact arg) → (args.map fun arg => arg.cString.length) = args.map List.length := fun hintact =>
    List.map_congr_left fun arg harg => by rw [Text.cString_of_not_mem (hintact arg harg).1]
  constructor
  · rintro ⟨hfits, hkeeps⟩
    have hintact := hreads.mp hkeeps
    rw [hwhole hintact] at hlength
    exact ⟨by omega, hintact⟩
  · rintro ⟨hshort, hintact⟩
    rw [hwhole hintact] at hlength
    exact ⟨by omega, hreads.mpr hintact⟩

theorem print_eq_ok {format sql : Text} {args : List Text} :
    print format args = .ok sql ↔ (sprintf format args).length + 1 ≤ sqlSize ∧ sprintf format args = sql := by
  unfold print
  split <;> simp [*]

/-- What is written in the buffer is the statement. -/
theorem KeepsData.print_eq {format : Text} {args : List Text} (h : KeepsData format args) :
    print format args = .ok (sprintf format args) := print_eq_ok.mpr ⟨h.fits, rfl⟩

/-- A hole at `k`, in a format whose characters are written out. -/
theorem Holes.at {n : Nat} {format : Text} (k : Nat) (hk : format.drop k = '%' :: 's' :: '\'' :: d :: rest)
    (hpre : '%' ∉ format.take k ∧ (between.run (format.take k)).1 = quoted '\'' [] ∧
      .literal ['%', 's'] ∉ (between.run (format.take k)).2) (hinert : Inert d) (hd : d ≠ '%') (h : Holes n (d :: rest)) :
    Holes (n + 1) format := by
  rw [← List.take_append_drop k format, hk]
  exact .hole hpre.1 hpre.2.1 hpre.2.2 hinert hd h

theorem insertUser_holes : Holes 2 insertUser := by
  have hchars : insertUser = _ := String.toList_ofList
  rw [hchars]
  refine .at 26 rfl (by decide) (by decide) (by decide) ?_
  refine .at 3 rfl (by decide) (by decide) (by decide) ?_
  exact .none (by decide) (by decide)

theorem loginUser_holes : Holes 2 loginUser := by
  have hchars : loginUser = _ := String.toList_ofList
  rw [hchars]
  refine .at 67 rfl (by decide) (by decide) (by decide) ?_
  refine .at 15 rfl (by decide) (by decide) (by decide) ?_
  exact .none (by decide) (by decide)

theorem userByName_holes : Holes 1 userByName := by
  have hchars : userByName = _ := String.toList_ofList
  rw [hchars]
  refine .at 67 rfl (by decide) (by decide) (by decide) ?_
  exact .none (by decide) (by decide)

/-- MySQL answers a login statement with two strings from the rows of the table that have them for `username` and
    `password`. How it compares them is up to the collation of the columns: a binary one compares byte for byte. -/
def AnswersFrom (t : UserTable) (same : Text → Text → Prop) (mysql : Text → Option (List LoginRow)) : Prop :=
  ∀ sql ts username password row rows, lex loginUser = some ts → lex sql = some (fill ts [username, password]) →
    mysql sql = some (row :: rows) → ∃ r ∈ t, same (.ofString r.username) username ∧ same (.ofString r.password) password

theorem login_finds {t : UserTable} {same : Text → Text → Prop} {mysql : Text → Option (List LoginRow)} {user user' : Members}
    {username password : String} (hmysql : AnswersFrom t same mysql) (hlogin : UserTable.login mysql user = .ok (user', true))
    (hun : user.get "username" = .str username) (hpw : user.get "password" = .str password)
    (hsafe : Safe loginUser [.ofString username, .ofString password]) :
    ∃ r ∈ t, same (.ofString r.username) (.ofString username) ∧ same (.ofString r.password) (.ofString password) := by
  have hkeeps := (loginUser_holes.keepsData_iff rfl).mpr hsafe
  have ⟨_, ts, hts, hreads⟩ := hkeeps
  rw [UserTable.login_eq hun hpw, hkeeps.print_eq] at hlogin
  simp only [bind, Except.bind] at hlogin
  split at hlogin
  · cases hlogin
  · cases hlogin
  · rename_i row rows hrows
    exact hmysql _ ts _ _ row rows hts hreads hrows

/-- The statements of `insert`, `login` and `select_by_name` keep just the safe texts as data. A login with safe texts
    succeeds only if some row has them. -/
theorem text_stays_data (username password : Text) :
    (KeepsData insertUser [username, password] ↔ Safe insertUser [username, password]) ∧
    (KeepsData loginUser [username, password] ↔ Safe loginUser [username, password]) ∧
    (KeepsData userByName [username] ↔ Safe userByName [username]) ∧
    ∀ (t : UserTable) same mysql user user' (un pw : String), AnswersFrom t same mysql →
      UserTable.login mysql user = .ok (user', true) → user.get "username" = .str un → user.get "password" = .str pw →
      Safe loginUser [.ofString un, .ofString pw] →
      ∃ r ∈ t, same (.ofString r.username) (.ofString un) ∧ same (.ofString r.password) (.ofString pw) :=
  ⟨insertUser_holes.keepsData_iff rfl, loginUser_holes.keepsData_iff rfl, userByName_holes.keepsData_iff rfl,
    fun _ _ _ _ _ _ _ hmysql hlogin hun hpw hsafe => login_finds hmysql hlogin hun hpw hsafe⟩

/-- A table with one user, the answers that MySQL gives from it, and the body with which this user signs in. -/
def oneUser : UserTable := [⟨1, "bob", "secret", 1000, 0, 0⟩]

def oneUserMysql (sql : Text) : Option (List LoginRow) :=
  if sql = sprintf loginUser [.ofString "bob", .ofString "secret"] then
    some [⟨some "1".toList, some "1000".toList, some "0".toList, some "0".toList⟩]
  else some []

def signIn : Members := [("username", .str "bob"), ("password", .str "secret")]

theorem safe_signIn : Safe loginUser [.ofString "bob", .ofString "secret"] := by
  have hbob : Text.ofString "bob" = ['b', 'o', 'b'] := by decide +kernel
  have hsecret : Text.ofString "secret" = ['s', 'e', 'c', 'r', 'e', 't'] := by decide +kernel
  have hplain : ∀ s : Text, '\x00' ∉ s → '\'' ∉ s → '\\' ∉ s → Intact s := fun s hnul hquote hescape =>
    ⟨hnul, hquote, fun t ht => absurd (ht.subset (List.mem_cons_self ..)) hescape⟩
  have hchars : loginUser = _ := String.toList_ofList
  rw [hbob, hsecret, hchars]
  refine ⟨by decide, fun arg harg => ?_⟩
  simp only [List.mem_cons, List.not_mem_nil, or_false] at harg
  rcases harg with rfl | rfl
  · exact hplain _ (by decide) (by decide) (by decide)
  · exact hplain _ (by decide) (by decide) (by decide)

theorem oneUser_answers : AnswersFrom oneUser (· = ·) oneUserMysql := by
  intro sql ts username password row rows hts hsql hrows
  obtain ⟨-, ts', hts', hreads⟩ := (loginUser_holes.keepsData_iff rfl).mpr safe_signIn
  obtain rfl := Option.some.inj (hts.symm.trans hts')
  unfold oneUserMysql at hrows
  split at hrows
  · rename_i heq
    rw [heq] at hsql
    have hfill := Option.some.inj (hreads.symm.trans hsql)
    have hargs : [Text.ofString "bob", .ofString "secret"] = [username, password] :=
      fill_inj rfl (loginUser_holes.le_count hts) hfill
    obtain ⟨hun, htail⟩ := List.cons.inj hargs
    exact ⟨_, List.mem_singleton_self _, hun, (List.cons.inj htail).1⟩
  · cases hrows

/-- The one user signs in. -/
theorem text_stays_data_bob : ∃ user', UserTable.login oneUserMysql signIn = .ok (user', true) ∧
    ∃ r ∈ oneUser, Text.ofString r.username = .ofString "bob" ∧ Text.ofString r.password = .ofString "secret" := by
  have hlogin : ∃ user', UserTable.login oneUserMysql signIn = .ok (user', true) := by
    have hun : signIn.get "username" = .str "bob" := rfl
    have hpw : signIn.get "password" = .str "secret" := rfl
    rw [UserTable.login_eq hun hpw, ((loginUser_holes.keepsData_iff rfl).mpr safe_signIn).print_eq]
    simp only [bind, Except.bind, oneUserMysql, if_pos]
    exact ⟨_, rfl⟩
  obtain ⟨user', hlogin⟩ := hlogin
  exact ⟨user', hlogin, (text_stays_data (.ofString "bob") (.ofString "secret")).2.2.2 oneUser (· = ·) oneUserMysql signIn user'
    "bob" "secret" oneUser_answers hlogin rfl rfl safe_signIn⟩

/-- A password that closes its string and goes on. -/
theorem text_escapes : ¬∀ username password, KeepsData loginUser [username, password] := by
  intro hall
  have hsafe := (loginUser_holes.keepsData_iff rfl).mp (hall "bob".toList "' or ''='".toList)
  obtain ⟨-, hquote, -⟩ := hsafe.intact "' or ''='".toList (by simp)
  exact hquote (by decide)

end Sql
end FiveStones
