import FiveStones.Theorems.Conversion
import FiveStones.Theorems.RoomMap

/-! In whose name a room message acts: the session user that it came from, or the `uid` that it names. -/

namespace FiveStones

/-- The two messages differ in their `uid` alone. -/
def AgreeOffUid (m m' : Members) : Prop := ∀ name, name ≠ "uid" → m'.get name = m.get name

/-- The `uid` can be converted. -/
def NamesUser (m : Members) : Prop := ∃ uid, (m.get "uid").asUInt64 = .ok uid

def withUid (m : Members) (uid : Uid) : Members := m.set "uid" (.uint uid)

theorem AgreeOffUid.symm {m m' : Members} (h : AgreeOffUid m m') : AgreeOffUid m' m := fun name hname => (h name hname).symm

theorem agree_set (m : Members) (v : Json) : AgreeOffUid m (m.set "uid" v) := fun _ h => Members.get_set_ne m v h

theorem agree_withUid (m : Members) (uid : Uid) : AgreeOffUid m (withUid m uid) := agree_set m _

@[simp] theorem withUid_names (m : Members) (uid : Uid) : ((withUid m uid).get "uid").asUInt64 = .ok uid := by
  simp [withUid]

/-- There is always somebody else. -/
theorem exists_other (a b c : Uid) : ∃ uid, uid ≠ a ∧ uid ≠ b ∧ uid ≠ c := by
  by_contra h
  push Not at h
  have h0 := h 0
  have h1 := h 1
  have h2 := h 2
  have h3 := h 3
  grind

namespace Room
variable {env : Env} {r r' : Room} {m m' m₁ m₂ resp : Members} {uid winner : Uid} {ms : Nat} {out : List Call} {c : Cell}
  {optype : String}

/-- What a handler leaves of the room, and who is paid for a win and for a loss. Nothing is left when it throws,
    which ends the server. -/
def outcome (x : Except JsonError (Room × List Call)) : Option (Room × List Uid × List Uid) :=
  x.toOption.map fun x => (x.1, wins x.2, loses x.2)

def effect (env : Env) (r : Room) (m : Members) : Option (Room × List Uid × List Uid) :=
  outcome (r.handleRequest env (.obj m))

def still (r : Room) : Room × List Uid × List Uid := (r, [], [])

/-- The time of the player to move is not used up, as `put_chess` sees it. -/
def InTime (env : Env) (r : Room) : Prop :=
  r.timingStarted = true → stepExpired (r.thinkingMs env) = false ∧ r.totalExpired (r.thinkingMs env) = false

/-- The requests that convert their `uid`. -/
def uidOptypes : List String := ["put_chess", "timeout", "rematch_invite", "rematch_accept"]

/-- The message converts its `uid`, and there is one with which it comes back. A `put_chess` before the clocks run
    may throw on what else it holds, whoever it names. -/
structure TakesUid (env : Env) (r : Room) (m : Members) : Prop where
  asks : ∃ optype ∈ uidOptypes, Asks r m optype
  first : Asks r m "put_chess" → r.statu = .gameStart → r.timingStarted = false →
    (m.get "row").FitsInt ∧ (m.get "col").FitsInt ∧ (Refuses env r m → (m.get "winner").FitsUInt64)

/-- The message does one thing for one user and another for another: before the clocks run it places a stone, of
    the colour of its `uid`; while they run it is a `put_chess` that is not just refused, or a timeout that is due; in
    a finished game it is a step of the handshake for another one. -/
inductive Acts (env : Env) (r : Room) (m : Members) : Prop
  | first (c : Cell) : Asks r m "put_chess" → r.statu = .gameStart → r.timingStarted = false →
      (m.get "row").asInt = .ok c.row → (m.get "col").asInt = .ok c.col → r.bothPlayersOnline env = true →
      r.board c = none → Acts env r m
  | move : Asks r m "put_chess" → r.statu = .gameStart → r.timingStarted = true →
      ¬(r.InTime env ∧ Refuses env r m ∧ (m.get "winner").asUInt64 = .ok 0) → Acts env r m
  | timeout (ms : Nat) : Asks r m "timeout" → r.statu = .gameStart → r.timingStarted = true →
      ms = (elapsedMs env.now r.turnStartTp + timeoutToleranceMs) % 2 ^ 64 →
      (stepExpired ms || r.totalExpired ms) = true → Acts env r m
  | invite : Asks r m "rematch_invite" → r.statu = .gameOver → r.rematchInitiatorUid = 0 →
      r.bothPlayersOnline env = true → Acts env r m
  | accept : Asks r m "rematch_accept" → r.statu = .gameOver → r.rematchInitiatorUid ≠ 0 →
      r.bothPlayersOnline env = true → Acts env r m

theorem Asks.of_agree (h : Asks r m optype) (hm : AgreeOffUid m m') : Asks r m' optype where
  room := by simpa [hm "room_id" (by decide)] using h.room
  optype := by simpa [hm "optype" (by decide)] using h.optype

theorem refuses_agree (hm : AgreeOffUid m m') : Refuses env r m' ↔ Refuses env r m := by
  simp only [Refuses, hm "row" (by decide), hm "col" (by decide)]

theorem Acts.of_agree (h : Acts env r m) (hm : AgreeOffUid m m') : Acts env r m' := by
  cases h with
  | first c asks hrun hfirst hrow hcol honline hfree =>
    exact .first c (asks.of_agree hm) hrun hfirst (by rwa [hm "row" (by decide)]) (by rwa [hm "col" (by decide)]) honline hfree
  | move asks hrun htiming hidle =>
    exact .move (asks.of_agree hm) hrun htiming (by rwa [refuses_agree hm, hm "winner" (by decide)])
  | timeout ms asks hrun htiming hms hexp => exact .timeout ms (asks.of_agree hm) hrun htiming hms hexp
  | invite asks hover hinit honline => exact .invite (asks.of_agree hm) hover hinit honline
  | accept asks hover hinit honline => exact .accept (asks.of_agree hm) hover hinit honline

/-! ### What the branches do -/

theorem handleRequest_eq (env : Env) (asks : Asks r m optype) : r.handleRequest env (.obj m) =
    if optype = "put_chess" then r.putChess env m
    else if optype = "timeout" then r.timeout env m
    else if optype = "rematch_invite" then r.rematchInvite env m
    else if optype = "rematch_accept" then r.rematchAccept env m
    else if optype = "chat" then (handleChat m).map fun resp => (r, [.broadcast resp])
    else .ok (r, [.broadcast (refuse optype "未知请求类型")]) := by
  obtain ⟨⟨roomId, hroom, hid⟩, hop⟩ := asks
  simp only [handleRequest, Json.members, hroom, hop, hid, bind, Except.bind, pure, Except.pure, ne_eq,
    not_true_eq_false, ↓reduceIte]
  cases handleChat m <;> rfl

theorem putChess_late (hrun : r.statu = .gameStart) (hlate : ¬r.InTime env)
    (hnames : (m.get "uid").asUInt64 = .ok r.turnUid) :
    r.putChess env m = .ok (r.timedOut (stepExpired (r.thinkingMs env))) := by
  obtain ⟨htiming, hexp⟩ := Classical.not_imp.mp hlate
  have hexp' : (stepExpired (r.thinkingMs env) || r.totalExpired (r.thinkingMs env)) = true := by
    cases hs : stepExpired (r.thinkingMs env) <;> simp_all
  simp only [putChess, hnames, hrun, htiming, hexp', bind, Except.bind, pure, Except.pure, reduceCtorEq, ↓reduceIte,
    ne_eq, not_true_eq_false, and_false, and_self]

theorem timeout_late (hrun : r.statu = .gameStart) (htiming : r.timingStarted = true)
    (hms : ms = (elapsedMs env.now r.turnStartTp + timeoutToleranceMs) % 2 ^ 64)
    (hexp : (stepExpired ms || r.totalExpired ms) = true) (hnames : (m.get "uid").asUInt64 = .ok r.turnUid) :
    r.timeout env m = .ok (r.timedOut (stepExpired ms)) := by
  have hexp' : ¬((!stepExpired ms && !r.totalExpired ms) = true) := by
    rw [← Bool.not_or, hexp]
    decide
  simp only [timeout, hnames, hrun, htiming, ← hms, hexp', bind, Except.bind, pure, Except.pure, reduceCtorEq,
    ↓reduceIte, ne_eq, not_true_eq_false, Bool.not_true, Bool.false_eq_true]

theorem rematchInvite_sent (hover : r.statu = .gameOver) (hinit : r.rematchInitiatorUid = 0)
    (honline : r.bothPlayersOnline env = true) (hnames : (m.get "uid").asUInt64 = .ok r.whiteId) :
    ∃ calls, r.rematchInvite env m = .ok ({ r with rematchInitiatorUid := r.whiteId }, calls) := by
  simp only [rematchInvite, hnames, hover, hinit, honline, bind, Except.bind, pure, Except.pure, ↓reduceIte, ne_eq,
    not_true_eq_false, false_and, Bool.not_true, Bool.false_eq_true]
  exact ⟨_, rfl⟩

theorem rematchAccept_agreed (hover : r.statu = .gameOver) (hinit : r.rematchInitiatorUid ≠ 0)
    (honline : r.bothPlayersOnline env = true) (hnames : (m.get "uid").asUInt64 = .ok uid)
    (hseat : r.Seats uid) (hother : uid ≠ r.rematchInitiatorUid) :
    ∃ calls, r.rematchAccept env m = .ok ((r.startRematch env).1, calls) := by
  have hno : ¬(uid ≠ r.whiteId ∧ uid ≠ r.blackId) := fun h => hseat.elim h.1 h.2
  simp only [rematchAccept, hnames, hover, hinit, honline, hno, hother, bind, Except.bind, pure, Except.pure, ↓reduceIte,
    ne_eq, not_true_eq_false, Bool.not_true, Bool.false_eq_true]
  exact ⟨_, rfl⟩

theorem afterChess_winner (env : Env) (uid : Uid) (ms : Nat) {accepted : Bool}
    (hres : resp.get "result" = .bool accepted)
    (hwinner : (resp.get "winner").asUInt64 = .ok winner) (hne : winner ≠ 0) :
    ∃ calls, r.afterChess env uid ms resp = .ok ({ r with statu := .gameOver }, calls) := by
  simp only [afterChess, hres, hwinner, Json.asBool, bind, Except.bind, pure, Except.pure, hne, and_false, ↓reduceIte,
    ne_eq, not_false_eq_true]
  exact ⟨_, rfl⟩

theorem afterChess_pass (env : Env) (uid : Uid) (ms : Nat) (hres : resp.get "result" = .bool true)
    (hwinner : (resp.get "winner").asUInt64 = .ok 0) :
    ∃ calls, r.afterChess env uid ms resp = .ok (r.passTurn env uid ms, calls) := by
  simp only [afterChess, hres, hwinner, Json.asBool, bind, Except.bind, pure, Except.pure, and_self, ↓reduceIte,
    ne_eq, not_true_eq_false]
  exact ⟨_, rfl⟩

theorem outcome_won (env : Env) (uid : Uid) (ms : Nat) {accepted : Bool} (hres : resp.get "result" = .bool accepted)
    (hwinner : (resp.get "winner").asUInt64 = .ok winner) (hne : winner ≠ 0) :
    outcome (r.afterChess env uid ms resp) = some ({ r with statu := .gameOver }, [winner], [r.opponentOf winner]) := by
  simp only [afterChess, hres, hwinner, Json.asBool, bind, Except.bind, pure, Except.pure, hne, and_false, ↓reduceIte,
    ne_eq, not_false_eq_true]
  rfl

/-- What is left of a refused move: nothing new, or the win of whom it names as the winner itself. -/
def afterRefusal (r : Room) (winner : Except JsonError Uid) : Option (Room × List Uid × List Uid) :=
  winner.toOption.map fun winner =>
    if winner = 0 then r.still else ({ r with statu := .gameOver }, [winner], [r.opponentOf winner])

theorem outcome_refused (env : Env) (uid : Uid) (ms : Nat) (hres : resp.get "result" = .bool false) :
    outcome (r.afterChess env uid ms resp) = r.afterRefusal (resp.get "winner").asUInt64 := by
  unfold afterRefusal
  cases hwinner : (resp.get "winner").asUInt64 with
  | error err =>
    simp only [afterChess, hres, hwinner, Json.asBool, bind, Except.bind]
    rfl
  | ok winner =>
    by_cases hzero : winner = 0
    · simp only [afterChess, hres, hwinner, hzero, Json.asBool, bind, Except.bind, pure, Except.pure, ne_eq,
        not_true_eq_false, Bool.false_eq_true, false_and, ↓reduceIte]
      rfl
    · simp only [outcome_won env uid ms hres hwinner hzero, Except.toOption, Option.map_some, hzero, ↓reduceIte]

/-- `handle_chess` answers as soon as it can read its three fields. -/
theorem handleChess_ok (env : Env) (r : Room) {row col : Int} (hrow : (m.get "row").asInt = .ok row)
    (hcol : (m.get "col").asInt = .ok col) (hnames : (m.get "uid").asUInt64 = .ok uid) :
    ∃ r' resp, r.handleChess env m = .ok (r', resp) := by
  simp only [handleChess, hrow, hcol, hnames, bind, Except.bind, pure, Except.pure]
  split
  · exact ⟨_, _, rfl⟩
  split
  · exact ⟨_, _, rfl⟩
  split
  · exact ⟨_, _, rfl⟩
  split
  · exact ⟨_, _, rfl⟩
  · exact ⟨_, _, rfl⟩

theorem Absent.unique {winner' : Uid} (h : Absent env r winner) (h' : Absent env r winner') : winner = winner' := by
  rcases h with ⟨hwhite, heq⟩ | ⟨hwhite, -, heq⟩ <;> rcases h' with ⟨hwhite', heq'⟩ | ⟨hwhite', -, heq'⟩
  · exact heq.trans heq'.symm
  · cases hwhite.symm.trans hwhite'
  · cases hwhite.symm.trans hwhite'
  · exact heq.trans heq'.symm

theorem ChessStep.winner_of_absent (h : ChessStep env r m r' resp) (hrow : (m.get "row").asInt = .ok c.row)
    (hcol : (m.get "col").asInt = .ok c.col) (habsent : Absent env r winner) : resp.get "winner" = .uint winner := by
  cases h with
  | refused hr hc hwhy =>
    obtain rfl := Except.ok.inj (hrow.symm.trans hr)
    obtain rfl := Except.ok.inj (hcol.symm.trans hc)
    cases habsent.not_online.symm.trans (taken_of_refused hwhy).1
  | walkover _ _ _ habsent' _ hwin => rw [hwin, Absent.unique habsent' habsent]
  | placed _ _ _ honline => cases habsent.not_online.symm.trans honline

theorem exists_absent (h : r.bothPlayersOnline env ≠ true) : ∃ winner, Absent env r winner := by
  simp only [bothPlayersOnline, ne_eq, Bool.and_eq_true, not_and, Bool.not_eq_true] at h
  cases hwhite : env.inGameRoom r.whiteId with
  | false => exact ⟨r.blackId, Or.inl ⟨hwhite, rfl⟩⟩
  | true => exact ⟨r.whiteId, Or.inr ⟨hwhite, h hwhite, rfl⟩⟩

theorem statu_ne (hrun : r.statu = .gameStart) (hover : r'.statu = .gameOver) : r' ≠ r := by
  rintro rfl
  rw [hrun] at hover
  cases hover

theorem startRematch_statu : (r.startRematch env).1.statu = .gameStart := rfl

theorem board_ne (hfree : r.board c = none) (hset : r'.board c ≠ none) : r' ≠ r := by
  rintro rfl
  exact hset hfree

/-- A move in time that is not refused changes the room, and so does a refused one with a `winner`. -/
theorem Admits.moves {row col : Int} (admits : Admits env r m uid) (hw : r.whiteId ≠ 0) (hb : r.blackId ≠ 0)
    (hrow : (m.get "row").asInt = .ok row) (hcol : (m.get "col").asInt = .ok col)
    (hclaim : Refuses env r m → ∃ winner, (m.get "winner").asUInt64 = .ok winner ∧ winner ≠ 0) :
    ∃ r' calls, r.handleRequest env (.obj m) = .ok (r', calls) ∧ r' ≠ r := by
  obtain ⟨r₁, resp, hchess⟩ := handleChess_ok env r hrow hcol admits.names
  rw [admits.handleRequest_eq rfl, hchess]
  simp only [bind, Except.bind]
  cases handleChess_inv hchess with
  | refused hrow' hcol' hwhy hres hwinner =>
    obtain ⟨winner, hwin, hne⟩ := hclaim ⟨_, _, hrow', hcol', hwhy⟩
    obtain ⟨calls, hafter⟩ := afterChess_winner env uid (r.thinkingMs env) hres (hwinner ▸ hwin) hne
    exact ⟨_, calls, hafter, statu_ne admits.running rfl⟩
  | @walkover _ _ c winner _ _ _ _ habsent hres hwinner =>
    obtain ⟨calls, hafter⟩ := afterChess_winner env uid (r.thinkingMs env) hres
      (hwinner ▸ Json.asUInt64_uint winner) (Absent.ne_zero habsent hw hb)
    exact ⟨_, calls, hafter, statu_ne admits.running rfl⟩
  | @placed _ c color _ _ _ _ _ hfree _ hres hwinner =>
    by_cases hzero : (r.withStone c color).checkWin c.row c.col color = 0
    · obtain ⟨calls, hafter⟩ := afterChess_pass env uid (r.thinkingMs env) hres
        (by rw [hwinner, Json.asUInt64_uint, hzero])
      exact ⟨_, calls, hafter, board_ne hfree (by simp)⟩
    · obtain ⟨calls, hafter⟩ := afterChess_winner env uid (r.thinkingMs env) hres
        (hwinner ▸ Json.asUInt64_uint _) hzero
      exact ⟨_, calls, hafter, statu_ne admits.running rfl⟩

/-! ### What a message does at all -/

theorem effect_eq_none : r.effect env m = none ↔ ¬r.Reads env m := by
  have hreturns : Returns (r.handleRequest env (.obj m)) ↔ r.Reads env m := handleRequest_obj_returns
  rw [← hreturns, effect]
  cases r.handleRequest env (.obj m) <;> simp [outcome, Except.toOption]

theorem effect_of_ok (h : r.handleRequest env (.obj m) = .ok (r', out)) : r.effect env m = some (r', wins out, loses out) := by
  rw [effect, h]
  rfl

theorem Absent.not_refuses (h : Absent env r winner) (honboard : OnBoard m) : ¬Refuses env r m := by
  rintro ⟨row, col, hrow, hcol, hwhy⟩
  obtain ⟨c, hrow', hcol'⟩ := honboard
  obtain rfl := Except.ok.inj (hrow'.symm.trans hrow)
  obtain rfl := Except.ok.inj (hcol'.symm.trans hcol)
  cases h.not_online.symm.trans (taken_of_refused hwhy).1

theorem Places.not_refuses {color : Chess} (h : Places env r m uid c color) : ¬Refuses env r m := by
  rintro ⟨row, col, hrow, hcol, hwhy⟩
  obtain rfl := Except.ok.inj (h.row.symm.trans hrow)
  obtain rfl := Except.ok.inj (h.col.symm.trans hcol)
  have htaken := (taken_of_refused hwhy).2
  rw [h.free] at htaken
  cases htaken

/-- The message is a move before the clocks run. -/
structure OpensGame (r : Room) (m : Members) : Prop where
  asks : Asks r m "put_chess"
  running : r.statu = .gameStart
  timing : r.timingStarted = false

theorem OpensGame.admits (h : OpensGame r m) (hnames : (m.get "uid").asUInt64 = .ok uid) : Admits env r m uid where
  asks := h.asks
  names := hnames
  running := h.running
  turn ht := by cases h.timing.symm.trans ht
  inTime ht := by cases h.timing.symm.trans ht

theorem OpensGame.of_agree (h : OpensGame r m) (hm : AgreeOffUid m m') : OpensGame r m' := ⟨h.asks.of_agree hm, h.running, h.timing⟩

theorem Admits.acts (admits : Admits env r m uid) (h : Refuses env r m → (m.get "winner").asUInt64 ≠ .ok 0) :
    Acts env r m ∨ OpensGame r m := by
  cases ht : r.timingStarted with
  | false => exact Or.inr ⟨admits.asks, admits.running, ht⟩
  | true => exact Or.inl (.move admits.asks admits.running ht fun ⟨_, hrefuses, hzero⟩ => h hrefuses hzero)

/-- A request that does anything is one that acts, or a move before the clocks run. -/
theorem RequestStep.acts (hs : RequestStep env r m r' out) :
    (r', wins out, loses out) = r.still ∨ Acts env r m ∨ OpensGame r m := by
  cases hs with
  | idle => exact Or.inl rfl
  | timeUp hrun htiming hnames hasks hexp =>
    refine Or.inr (Or.inl ?_)
    rcases hasks with ⟨asks, rfl⟩ | ⟨asks, hms⟩
    · refine .move asks hrun htiming fun h => ?_
      have hin := h.1 htiming
      simp only [thinkingMs, htiming, ↓reduceIte] at hin
      simp [hin.1, hin.2] at hexp
    · exact .timeout _ asks hrun htiming hms hexp
  | walkover admits honboard habsent =>
    exact Or.inr (admits.acts fun hrefuses => absurd hrefuses (habsent.not_refuses honboard))
  | claimed admits hrefuses hwinner hne =>
    exact Or.inr (admits.acts fun _ hzero => hne (Except.ok.inj (hwinner.symm.trans hzero)))
  | placed places | won places => exact Or.inr (places.acts fun hrefuses => absurd hrefuses places.not_refuses)
  | invite asks _ hover _ hinit honline => exact Or.inr (Or.inl (.invite asks hover hinit honline))
  | accept asks _ hover _ hinit _ honline => exact Or.inr (Or.inl (.accept asks hover hinit honline))

theorem Acts.asks (h : Acts env r m) : ∃ optype ∈ uidOptypes, Asks r m optype := by
  cases h with
  | first _ asks | move asks | timeout _ asks | invite asks | accept asks => exact ⟨_, by decide, asks⟩

/-- A stone has the colour of the user that its message names. -/
theorem effect_of_places {color : Chess} (places : Places env r m uid c color) :
    ∃ r' ws ls, r.effect env m = some (r', ws, ls) ∧ r'.board c = some color := by
  obtain ⟨r₁, resp, hchess⟩ := handleChess_ok env r places.row places.col places.names
  obtain ⟨rfl, hres, hwinner⟩ := (handleChess_inv hchess).of_places places
  have hwin : (resp.get "winner").asUInt64 = .ok _ := hwinner ▸ Json.asUInt64_uint _
  have heq : r.handleRequest env (.obj m) = _ := places.handleRequest_eq rfl
  rw [hchess] at heq
  by_cases hzero : (r.withStone c color).checkWin c.row c.col color = 0
  · obtain ⟨calls, hafter⟩ := afterChess_pass env uid (r.thinkingMs env) hres (hwin.trans (congrArg _ hzero))
    exact ⟨_, _, _, effect_of_ok (heq.trans hafter), by simp⟩
  · obtain ⟨calls, hafter⟩ := afterChess_winner env uid (r.thinkingMs env) hres hwin hzero
    exact ⟨_, _, _, effect_of_ok (heq.trans hafter), by simp⟩

/-- What a message needs to come back when nothing of it depends on its `uid`. -/
structure ReadsRest (r : Room) (m : Members) : Prop where
  roomId : (m.get "room_id").FitsUInt64
  optype : (m.get "optype").HasText
  message : Asks r m "chat" → (m.get "message").HasText

section Seated
variable (hw : r.whiteId ≠ 0) (hb : r.blackId ≠ 0)
include hw hb

/-- A message that neither acts nor opens does nothing but throw. -/
theorem effect_of_idle (hacts : ¬Acts env r m) (hopens : ¬OpensGame r m) (hm : AgreeOffUid m m')
    (huid : ∀ optype ∈ uidOptypes, Asks r m optype → (m'.get "uid").FitsUInt64) :
    (r.effect env m' = none ∧ ¬ReadsRest r m) ∨ (r.effect env m' = some r.still ∧ ReadsRest r m) := by
  have hreads : r.Reads env m' ↔ ReadsRest r m := by
    constructor
    · intro h
      exact ⟨hm "room_id" (by decide) ▸ h.roomId, hm "optype" (by decide) ▸ h.optype,
        fun asks => hm "message" (by decide) ▸ h.message (asks.of_agree hm)⟩
    · intro h
      refine ⟨hm "room_id" (by decide) ▸ h.roomId, hm "optype" (by decide) ▸ h.optype,
        fun optype hmem asks => huid optype hmem (asks.of_agree hm.symm), fun uid admits => ?_,
        fun asks => hm "message" (by decide) ▸ h.message (asks.of_agree hm.symm)⟩
      have hidle : r.InTime env ∧ Refuses env r m ∧ (m.get "winner").asUInt64 = .ok 0 := by
        by_contra hno
        have asks := admits.asks.of_agree hm.symm
        cases ht : r.timingStarted with
        | false => exact hopens ⟨asks, admits.running, ht⟩
        | true => exact hacts (.move asks admits.running ht hno)
      obtain ⟨-, ⟨row, col, hrow, hcol, -⟩, hzero⟩ := hidle
      rw [hm "row" (by decide), hm "col" (by decide), hm "winner" (by decide)]
      exact ⟨Json.asInt_returns.mp ⟨row, hrow⟩, Json.asInt_returns.mp ⟨col, hcol⟩, fun _ => Json.asUInt64_returns.mp ⟨0, hzero⟩⟩
  rw [← hreads]
  cases hreq : r.handleRequest env (.obj m') with
  | error err =>
    have hnone : r.effect env m' = none := by
      rw [effect, hreq]
      rfl
    exact Or.inl ⟨hnone, effect_eq_none.mp hnone⟩
  | ok x =>
    have hsome := effect_of_ok hreq
    refine Or.inr ⟨hsome.trans (congrArg some ?_), not_not.mp fun hno => ?_⟩
    · obtain ⟨m'', hm'', hstep⟩ := handleRequest_inv hw hb hreq
      obtain rfl := Except.ok.inj hm''
      rcases hstep.acts with hstill | hacts' | hopens'
      · exact hstill
      · exact absurd (hacts'.of_agree hm.symm) hacts
      · exact absurd (hopens'.of_agree hm.symm) hopens
    · rw [effect_eq_none.mpr hno] at hsome
      cases hsome

/-- A move before the clocks run that places no stone does the same for everybody. -/
theorem exists_effect_of_opens (hopens : OpensGame r m) (hacts : ¬Acts env r m) :
    ∃ x, ∀ m', AgreeOffUid m m' → NamesUser m' → r.effect env m' = x := by
  have hchess : ∀ m' uid row col, AgreeOffUid m m' → (m'.get "uid").asUInt64 = .ok uid →
      (m.get "row").asInt = .ok row → (m.get "col").asInt = .ok col → ∃ r' resp, ChessStep env r m' r' resp ∧
        r.effect env m' = outcome (r'.afterChess env uid (r.thinkingMs env) resp) := by
    intro m' uid row col hm hnames hrow hcol
    obtain ⟨r', resp, hchess⟩ := handleChess_ok env r (hm "row" (by decide) ▸ hrow) (hm "col" (by decide) ▸ hcol) hnames
    refine ⟨r', resp, handleChess_inv hchess, ?_⟩
    have admits : Admits env r m' uid := (hopens.of_agree hm).admits hnames
    rw [effect, admits.handleRequest_eq rfl, hchess]
    rfl
  by_cases hrefuses : Refuses env r m
  · have ⟨row, col, hrow, hcol, _⟩ := hrefuses
    refine ⟨r.afterRefusal (m.get "winner").asUInt64, fun m' hm ⟨uid, hnames⟩ => ?_⟩
    obtain ⟨r', resp, hstep, heffect⟩ := hchess m' uid row col hm hnames hrow hcol
    obtain ⟨rfl, hres, hwinner⟩ := hstep.of_refuses ((refuses_agree hm).mpr hrefuses)
    rw [heffect, outcome_refused _ _ _ hres, hwinner, hm "winner" (by decide)]
  by_cases hfits : (m.get "row").FitsInt ∧ (m.get "col").FitsInt
  · obtain ⟨row, hrow⟩ := Json.asInt_returns.mpr hfits.1
    obtain ⟨col, hcol⟩ := Json.asInt_returns.mpr hfits.2
    obtain ⟨c, hcell⟩ : ∃ c, Cell.of? row col = some c := by
      by_contra hno
      exact hrefuses ⟨row, col, hrow, hcol, Or.inl (Option.eq_none_iff_forall_not_mem.mpr fun c hc => hno ⟨c, hc⟩)⟩
    obtain ⟨rfl, rfl⟩ := Cell.of?_eq_some.mp hcell
    obtain ⟨winner, habsent⟩ : ∃ winner, Absent env r winner := by
      refine exists_absent fun honline => ?_
      cases hfree : r.board c with
      | none => exact hacts (.first c hopens.asks hopens.running hopens.timing hrow hcol honline hfree)
      | some color => exact hrefuses ⟨_, _, hrow, hcol, Or.inr ⟨c, hcell, honline, by simp [hfree]⟩⟩
    refine ⟨some ({ r with statu := .gameOver }, [winner], [r.opponentOf winner]), fun m' hm ⟨uid, hnames⟩ => ?_⟩
    obtain ⟨r', resp, hstep, heffect⟩ := hchess m' uid _ _ hm hnames hrow hcol
    have hrow' := hm "row" (by decide) ▸ hrow
    have hcol' := hm "col" (by decide) ▸ hcol
    obtain ⟨rfl, hres⟩ := hstep.of_absent hrow' hcol' habsent
    have hwinner : (resp.get "winner").asUInt64 = .ok winner := by
      rw [hstep.winner_of_absent hrow' hcol' habsent, Json.asUInt64_uint]
    rw [heffect, outcome_won _ _ _ hres hwinner (habsent.ne_zero hw hb)]
  · refine ⟨none, fun m' hm ⟨uid, hnames⟩ => effect_eq_none.mpr fun hreads => hfits ?_⟩
    obtain ⟨hrow, hcol, -⟩ := hreads.chess uid ((hopens.of_agree hm).admits hnames)
    rw [hm "row" (by decide)] at hrow
    rw [hm "col" (by decide)] at hcol
    exact ⟨hrow, hcol⟩

/-- A message that does not act has one effect with every `uid` that it can name. -/
theorem effect_eq_of_idle (hacts : ¬Acts env r m) (h₁ : AgreeOffUid m m₁) (h₂ : AgreeOffUid m m₂) (hn₁ : NamesUser m₁)
    (hn₂ : NamesUser m₂) : r.effect env m₁ = r.effect env m₂ := by
  by_cases hopens : OpensGame r m
  · obtain ⟨x, hx⟩ := exists_effect_of_opens hw hb hopens hacts
    rw [hx m₁ h₁ hn₁, hx m₂ h₂ hn₂]
  · rcases effect_of_idle hw hb hacts hopens h₁ fun _ _ _ => Json.asUInt64_returns.mp hn₁ with ⟨he₁, hr₁⟩ | ⟨he₁, hr₁⟩ <;>
      rcases effect_of_idle hw hb hacts hopens h₂ fun _ _ _ => Json.asUInt64_returns.mp hn₂ with ⟨he₂, hr₂⟩ | ⟨he₂, hr₂⟩
    · rw [he₁, he₂]
    · exact absurd hr₂ hr₁
    · exact absurd hr₁ hr₂
    · rw [he₁, he₂]

/-! ### An effect for one user and not for another -/

/-- A message in the name of somebody else leaves everything as it is. -/
theorem effect_of_stranger (hop : optype ∈ uidOptypes) (asks : Asks r m optype) (hopens : ¬OpensGame r m)
    (hnames : (m.get "uid").asUInt64 = .ok uid) (hturn : uid ≠ r.turnUid) (hseat : ¬r.Seats uid) :
    r.effect env m = some r.still := by
  have hadmits : ∀ uid', ¬Admits env r m uid' := fun uid' admits => by
    cases ht : r.timingStarted with
    | false => exact hopens ⟨admits.asks, admits.running, ht⟩
    | true => exact hturn (Except.ok.inj (hnames.symm.trans admits.names) ▸ admits.turn ht)
  have hreads : r.Reads env m := by
    obtain ⟨roomId, hroom, -⟩ := asks.room
    refine ⟨Json.asUInt64_returns.mp ⟨roomId, hroom⟩, Json.asString_returns.mp ⟨optype, asks.optype⟩,
      fun _ _ _ => Json.asUInt64_returns.mp ⟨uid, hnames⟩, fun uid' admits => absurd admits (hadmits uid'), fun hchat => ?_⟩
    exact absurd (asks.unique hchat ▸ hop) (by decide)
  obtain ⟨⟨r', out⟩, hreq⟩ := handleRequest_obj_returns.mpr hreads
  rw [effect_of_ok hreq]
  obtain ⟨m', hm', hstep⟩ := handleRequest_inv hw hb hreq
  obtain rfl := Except.ok.inj hm'
  cases hstep with
  | idle => rfl
  | timeUp _ _ hnames' => exact absurd (Except.ok.inj (hnames.symm.trans hnames')) hturn
  | walkover admits | claimed admits => exact absurd admits (hadmits _)
  | placed places | won places => exact absurd places.toAdmits (hadmits _)
  | invite _ hnames' _ hseat' | accept _ hnames' _ hseat' =>
    exact absurd (Except.ok.inj (hnames.symm.trans hnames') ▸ hseat') hseat

/-- For a message that acts there are two users with different effects. -/
theorem Acts.differs (h : Acts env r m) (hne : r.whiteId ≠ r.blackId) :
    ∃ uid uid', r.effect env (withUid m uid) ≠ r.effect env (withUid m uid') := by
  obtain ⟨other, hturn, hwhite, hblack⟩ := exists_other r.turnUid r.whiteId r.blackId
  have hstill : ∀ {optype}, optype ∈ uidOptypes → Asks r m optype → ¬OpensGame r m →
      r.effect env (withUid m other) = some r.still := fun hop asks hopens =>
    effect_of_stranger hw hb hop (asks.of_agree (agree_withUid m other))
      (fun h => hopens (h.of_agree (agree_withUid m other).symm)) (withUid_names m other) hturn
      fun hseat => hseat.elim hwhite hblack
  have hmoved : ∀ {uid r' calls}, r.handleRequest env (.obj (withUid m uid)) = .ok (r', calls) → r' ≠ r →
      r.effect env (withUid m uid) ≠ some r.still := by
    intro uid r' calls hreq hr' heq
    rw [effect_of_ok hreq] at heq
    exact hr' (congrArg Prod.fst (Option.some.inj heq))
  have hm := agree_withUid m r.turnUid
  cases h with
  | first c asks hrun hfirst hrow hcol honline hfree =>
    have places : ∀ uid, Places env r (withUid m uid) uid c (if uid = r.whiteId then .white else .black) := fun uid =>
      have opens : OpensGame r (withUid m uid) := ⟨asks.of_agree (agree_withUid m uid), hrun, hfirst⟩
      { opens.admits (withUid_names m uid) with
        row := agree_withUid m uid "row" (by decide) ▸ hrow
        col := agree_withUid m uid "col" (by decide) ▸ hcol
        online := honline
        free := hfree
        color_eq := rfl }
    obtain ⟨r₁, ws₁, ls₁, heffect₁, hboard₁⟩ := effect_of_places (places r.whiteId)
    obtain ⟨r₂, ws₂, ls₂, heffect₂, hboard₂⟩ := effect_of_places (places r.blackId)
    refine ⟨r.whiteId, r.blackId, fun heq => ?_⟩
    obtain rfl : r₁ = r₂ := congrArg Prod.fst (Option.some.inj (heffect₁.symm.trans (heq.trans heffect₂)))
    simp [hboard₁, hne.symm] at hboard₂
  | move asks hrun htiming hidle =>
    refine ⟨r.turnUid, other, ?_⟩
    rw [hstill (by decide) asks fun hopens => by cases htiming.symm.trans hopens.timing]
    by_cases htime : r.InTime env
    · intro heq
      have admits : Admits env r (withUid m r.turnUid) r.turnUid :=
        ⟨asks.of_agree hm, withUid_names m _, hrun, fun _ => rfl, htime⟩
      have hreads : r.Reads env (withUid m r.turnUid) := by
        by_contra hno
        cases (effect_eq_none.mpr hno).symm.trans heq
      obtain ⟨hrow, hcol, hwinner⟩ := hreads.chess _ admits
      obtain ⟨row, hrow⟩ := Json.asInt_returns.mpr hrow
      obtain ⟨col, hcol⟩ := Json.asInt_returns.mpr hcol
      obtain ⟨r', calls, hreq, hr'⟩ := admits.moves hw hb hrow hcol fun hrefuses => by
        obtain ⟨winner, hwinner⟩ := Json.asUInt64_returns.mpr (hwinner hrefuses)
        rw [hm "winner" (by decide)] at hwinner ⊢
        exact ⟨winner, hwinner, fun hzero => hidle ⟨htime, (refuses_agree hm).mp hrefuses, hzero ▸ hwinner⟩⟩
      exact hmoved hreq hr' heq
    · have hreq := handleRequest_eq env (asks.of_agree hm)
      rw [if_pos rfl, putChess_late hrun htime (withUid_names m _)] at hreq
      exact hmoved hreq (statu_ne hrun rfl)
  | timeout ms asks hrun htiming hms hexp =>
    refine ⟨r.turnUid, other, ?_⟩
    rw [hstill (by decide) asks fun hopens => by cases htiming.symm.trans hopens.timing]
    have hreq := handleRequest_eq env (asks.of_agree hm)
    rw [if_neg (by decide), if_pos rfl, timeout_late hrun htiming hms hexp (withUid_names m _)] at hreq
    exact hmoved hreq (statu_ne hrun rfl)
  | invite asks hover hinit honline =>
    refine ⟨r.whiteId, other, ?_⟩
    rw [hstill (by decide) asks fun hopens => absurd_statu hopens.running hover]
    obtain ⟨calls, hinvite⟩ := rematchInvite_sent hover hinit honline (withUid_names m _)
    have hreq := handleRequest_eq env (asks.of_agree (agree_withUid m r.whiteId))
    rw [if_neg (by decide), if_neg (by decide), if_pos rfl, hinvite] at hreq
    refine hmoved hreq fun hsame => hw ?_
    have hinit' := congrArg Room.rematchInitiatorUid hsame
    rwa [hinit] at hinit'
  | accept asks hover hinit honline =>
    obtain ⟨uid, hseat, hother⟩ : ∃ uid, r.Seats uid ∧ uid ≠ r.rematchInitiatorUid := by
      by_cases h : r.whiteId = r.rematchInitiatorUid
      · exact ⟨r.blackId, Or.inr rfl, h ▸ hne.symm⟩
      · exact ⟨r.whiteId, Or.inl rfl, h⟩
    refine ⟨uid, other, ?_⟩
    rw [hstill (by decide) asks fun hopens => absurd_statu hopens.running hover]
    obtain ⟨calls, haccept⟩ := rematchAccept_agreed hover hinit honline (withUid_names m uid) hseat hother
    have hreq := handleRequest_eq env (asks.of_agree (agree_withUid m uid))
    rw [if_neg (by decide), if_neg (by decide), if_neg (by decide), if_pos rfl, haccept] at hreq
    exact hmoved hreq (statu_ne startRematch_statu hover).symm

/-- Whoever they name, messages have the same effect exactly when they act for nobody. -/
theorem effect_agree_iff (hne : r.whiteId ≠ r.blackId) :
    (∀ m₁ m₂, AgreeOffUid m m₁ → AgreeOffUid m m₂ → NamesUser m₁ → NamesUser m₂ → r.effect env m₁ = r.effect env m₂) ↔
      ¬Acts env r m := by
  constructor
  · intro hall hacts
    obtain ⟨uid, uid', hdiffers⟩ := hacts.differs hw hb hne
    exact hdiffers (hall _ _ (agree_withUid m uid) (agree_withUid m uid') ⟨uid, withUid_names m uid⟩ ⟨uid', withUid_names m uid'⟩)
  · exact fun hacts m₁ m₂ h₁ h₂ hn₁ hn₂ => effect_eq_of_idle hw hb hacts h₁ h₂ hn₁ hn₂

/-- A message that takes its `uid` comes back with some of them. -/
theorem TakesUid.comes_back (h : TakesUid env r m) : ∃ uid, r.effect env (withUid m uid) ≠ none := by
  obtain ⟨optype, hop, asks⟩ := h.asks
  by_cases hopens : OpensGame r m
  · refine ⟨0, fun hnone => effect_eq_none.mp hnone ?_⟩
    have hm := agree_withUid m 0
    obtain ⟨hrow, hcol, hwinner⟩ := h.first hopens.asks hopens.running hopens.timing
    obtain ⟨roomId, hroom, -⟩ := asks.room
    refine ⟨?_, ?_, fun _ _ _ => Json.asUInt64_returns.mp ⟨0, withUid_names m 0⟩, fun uid admits => ?_, fun hchat => ?_⟩
    · rw [hm "room_id" (by decide)]
      exact Json.asUInt64_returns.mp ⟨roomId, hroom⟩
    · rw [hm "optype" (by decide)]
      exact Json.asString_returns.mp ⟨optype, asks.optype⟩
    · rw [hm "row" (by decide), hm "col" (by decide), hm "winner" (by decide), refuses_agree hm]
      exact ⟨hrow, hcol, hwinner⟩
    · exact absurd ((hchat.of_agree hm.symm).unique hopens.asks) (by decide)
  · obtain ⟨other, hturn, hwhite, hblack⟩ := exists_other r.turnUid r.whiteId r.blackId
    refine ⟨other, ?_⟩
    rw [effect_of_stranger hw hb hop (asks.of_agree (agree_withUid m other))
      (fun h => hopens (h.of_agree (agree_withUid m other).symm)) (withUid_names m other) hturn
      fun hseat => hseat.elim hwhite hblack]
    exact nofun

/-- The `uid` makes no difference at all exactly when it is not taken. -/
theorem effect_any_uid_iff : (∀ m', AgreeOffUid m m' → r.effect env m' = r.effect env m) ↔ ¬TakesUid env r m := by
  constructor
  · intro hall htakes
    obtain ⟨uid, hback⟩ := htakes.comes_back hw hb
    obtain ⟨optype, hop, asks⟩ := htakes.asks
    have hm := agree_set m (.str "")
    have hthrows : r.effect env (m.set "uid" (.str "")) = none := effect_eq_none.mpr fun hreads => by
      have hfits := hreads.uid optype hop (asks.of_agree hm)
      rw [Members.get_set_self] at hfits
      exact hfits
    exact hback ((hall _ (agree_withUid m uid)).trans ((hall _ hm).symm.trans hthrows))
  · intro htakes
    have hsame : ∀ m₁ m₂, AgreeOffUid m m₁ → AgreeOffUid m m₂ → r.effect env m₁ = r.effect env m₂ := by
      intro m₁ m₂ h₁ h₂
      by_cases hasks : ∃ optype ∈ uidOptypes, Asks r m optype
      · -- A first move that throws whoever it names.
        have hnone : ∀ m', AgreeOffUid m m' → r.effect env m' = none := fun m' hm => effect_eq_none.mpr fun hreads => by
          refine htakes ⟨hasks, fun asks hrun hfirst => ?_⟩
          obtain ⟨uid, hnames⟩ := Json.asUInt64_returns.mpr (hreads.uid _ (by decide) (asks.of_agree hm))
          have opens : OpensGame r m' := ⟨asks.of_agree hm, hrun, hfirst⟩
          have hchess := hreads.chess uid (opens.admits hnames)
          rwa [hm "row" (by decide), hm "col" (by decide), hm "winner" (by decide), refuses_agree hm] at hchess
        rw [hnone m₁ h₁, hnone m₂ h₂]
      · have hacts : ¬Acts env r m := fun h => hasks h.asks
        have hopens : ¬OpensGame r m := fun h => hasks ⟨_, by decide, h.asks⟩
        rcases effect_of_idle hw hb hacts hopens h₁ fun optype hop asks => absurd ⟨optype, hop, asks⟩ hasks with
          ⟨he₁, hr₁⟩ | ⟨he₁, hr₁⟩ <;>
          rcases effect_of_idle hw hb hacts hopens h₂ fun optype hop asks => absurd ⟨optype, hop, asks⟩ hasks with
            ⟨he₂, hr₂⟩ | ⟨he₂, hr₂⟩
        · rw [he₁, he₂]
        · exact absurd hr₂ hr₁
        · exact absurd hr₁ hr₂
        · rw [he₁, he₂]
    exact fun m' hm => hsame m' m hm fun _ _ => rfl

end Seated

end Room

namespace RoomManager
variable {env : Env} {rm : RoomManager} {rid : Rid} {r r' : Room} {uid : Uid} {m : Members}

/-- What a message on the room connection of the session user `uid` leaves of the rooms, and who is paid; nothing
    when it throws. -/
def effect (env : Env) (rm : RoomManager) (uid : Uid) (m : Members) : Option (RoomManager × List Uid × List Uid) :=
  (rm.wsmsgGameRoom env uid (some (.obj m))).toOption.map fun x => (x.1, wins x.2, loses x.2)

theorem setRoom_inj (h : rm.setRoom rid r = rm.setRoom rid r') : r = r' := by
  have hrid := congrArg (fun rm : RoomManager => rm.rooms rid) h
  simpa using hrid

/-- The session user only finds the room: the rest is the room's. -/
theorem effect_eq (h : rm.findRoom uid = some (rid, r)) :
    rm.effect env uid m = (r.effect env m).map fun x => (rm.setRoom rid x.1, x.2) := by
  unfold effect Room.effect wsmsgGameRoom
  cases hreq : r.handleRequest env (.obj m) with
  | error err => simp [h, hreq, bind, Except.bind, Room.outcome, Except.toOption]
  | ok x => simp [h, hreq, bind, Except.bind, pure, Except.pure, Room.outcome, Except.toOption]

theorem effect_inj (h : rm.findRoom uid = some (rid, r)) (m m' : Members) :
    rm.effect env uid m = rm.effect env uid m' ↔ r.effect env m = r.effect env m' := by
  rw [effect_eq h, effect_eq h]
  refine (Option.map_injective ?_).eq_iff
  rintro ⟨r₁, x₁⟩ ⟨r₂, x₂⟩ heq
  obtain ⟨hroom, hpaid⟩ := Prod.mk.inj heq
  exact Prod.ext (setRoom_inj hroom) hpaid

section Runs
variable {roomId : Nat} {w b : Uid} {now : Int} {ts : List RoomTrans}

/-- Whatever user a connection belongs to, its messages have the same effect with every value of `uid` exactly when
    that is not taken, and the same effect with every `uid` that can be converted exactly when they act for nobody. -/
theorem effect_uid_iff (h : Room.machine.Run (Room.create roomId w b now) ts r) (hw : w ≠ 0) (hb : b ≠ 0) (hne : w ≠ b)
    (hfind : rm.findRoom uid = some (rid, r)) :
    ((∀ m', AgreeOffUid m m' → rm.effect env uid m' = rm.effect env uid m) ↔ ¬r.TakesUid env m) ∧
      ((∀ m₁ m₂, AgreeOffUid m m₁ → AgreeOffUid m m₂ → NamesUser m₁ → NamesUser m₂ →
        rm.effect env uid m₁ = rm.effect env uid m₂) ↔ ¬r.Acts env m) := by
  have hseated := Room.run_seated h hw hb
  have hwhite := hseated.white_ne_zero hw hb
  have hblack := hseated.black_ne_zero hw hb
  simp only [effect_inj hfind]
  exact ⟨Room.effect_any_uid_iff hwhite hblack, Room.effect_agree_iff hwhite hblack (hseated.seats_ne hne)⟩

/-- The room manager with one room, of 10 with white and 20 with black. -/
def oneRoom : RoomManager := empty.addRoom 10 20 0

def chatMsg : Members := [("room_id", .int 1), ("optype", .str "chat"), ("uid", .uint 20), ("message", .str "你好")]

/-- Chat has the same effect under every name. -/
theorem effect_uid_chat : oneRoom.findRoom 10 ≠ none ∧
    (∀ m', AgreeOffUid chatMsg m' → oneRoom.effect (.allPresent 0) 10 m' = oneRoom.effect (.allPresent 0) 10 chatMsg) := by
  have hfind : oneRoom.findRoom 10 = some (1, Room.create 1 10 20 0) := rfl
  refine ⟨by simp [hfind], (effect_uid_iff .nil (by decide) (by decide) (by decide) hfind).1.mpr fun htakes => ?_⟩
  obtain ⟨optype, hop, asks⟩ := htakes.asks
  have hchat : Room.Asks (Room.create 1 10 20 0) chatMsg "chat" := ⟨⟨1, rfl, rfl⟩, rfl⟩
  exact absurd (asks.unique hchat ▸ hop) (by decide)

/-- 10 moves for itself, or puts black's stone by naming 20. -/
theorem effect_uid_differs : ¬∀ roomId w b now (ts : List RoomTrans) (r : Room) (rm : RoomManager) rid uid env m m',
    w ≠ 0 → b ≠ 0 → w ≠ b → Room.machine.Run (Room.create roomId w b now) ts r → rm.findRoom uid = some (rid, r) →
    r.Seats uid → AgreeOffUid m m' → rm.effect env uid m' = rm.effect env uid m := by
  intro hall
  have h := hall 1 10 20 0 [] _ oneRoom 1 10 (.allPresent 0) (putChessMsg 1 10 7 7) (withUid (putChessMsg 1 10 7 7) 20)
    (by decide) (by decide) (by decide) .nil rfl (Or.inl rfl) (agree_withUid _ _)
  have hstone := congrArg (fun x => x.map fun x => (x.1.rooms 1).map fun r => r.board ⟨7, 7⟩) h
  revert hstone
  decide +kernel

end Runs
end RoomManager
end FiveStones
