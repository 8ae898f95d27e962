import FiveStones.Theorems.Agreement
import FiveStones.Theorems.Clock
import FiveStones.Theorems.RoomMap

/-! The clocks that a page shows, against the clocks of the server: a page tells the server that its time is up only
when the server finds so too. -/

namespace FiveStones

/-- A reading of the server's clock, in milliseconds. -/
def msOf (t : Int) : Rat := t / 1000000

/-- From when a page reads to when it ticks its clock does not run ahead of the server's by more than the server's
    tolerance, and the server's clock is in its range. -/
def DuelEvent.Timely (base : Party → Rat) : DuelEvent → Prop
  | .read who now perf => base who + msOf now ≤ perf
  | .tick who now perf => perf ≤ base who + msOf now + timeoutToleranceMs
  | .serve _ _ now later => Reading now ∧ Reading later
  | _ => True

instance (base : Party → Rat) : DecidablePred (DuelEvent.Timely base)
  | .read .. | .tick .. => inferInstanceAs (Decidable (_ ≤ _))
  | .serve .. => inferInstanceAs (Decidable (_ ∧ _))
  | .act .. | .leave _ | .vanish _ | .exit _ | .watch .. | .unwatch _ => inferInstanceAs (Decidable True)

/-- The color that is to move. -/
def Room.turnColor (r : Room) : Chess := if r.turnUid = r.whiteId then .white else .black

theorem msOf_mono {t t' : Int} (h : t ≤ t') : msOf t ≤ msOf t' := by
  unfold msOf
  have hcast : (t : Rat) ≤ t' := by exact_mod_cast h
  gcongr

/-- What a page has counted to the end, with the tolerance, the server counts to the end too. -/
theorem late_of_counted {start now later : Int} {base perf : Rat} {left : Nat} (hcount : base + msOf start + left ≤ perf)
    (hperf : perf ≤ base + msOf now + timeoutToleranceMs) (hstart : start ≤ now) (hnow : now ≤ later) (hlow : Reading start)
    (hhigh : Reading later) : left ≤ (elapsedMs later start + timeoutToleranceMs) % 2 ^ 64 := by
  have hsum : (start : Rat) + left * 1000000 ≤ now + timeoutToleranceMs * 1000000 := by
    unfold msOf at hcount hperf
    linarith
  have hle : start + left * 1000000 ≤ now + timeoutToleranceMs * 1000000 := by exact_mod_cast hsum
  have helapsed : elapsedMs later start = ((later - start) / 1000000).toNat := by
    obtain ⟨hlow, -⟩ := hlow
    obtain ⟨-, hhigh⟩ := hhigh
    rw [elapsedMs, Int.tdiv_eq_ediv_of_nonneg (by omega), Int.emod_eq_of_lt (by omega) (by omega)]
  rw [(elapsedMs_mono hstart hnow hlow hhigh).2, helapsed]
  simp only [timeoutToleranceMs] at hle ⊢
  omega

theorem Room.curTotalLeftMs_eq (r : Room) : r.curTotalLeftMs =
    match r.turnColor with
    | .white => r.whiteTotalLeftMs
    | .black => r.blackTotalLeftMs := by
  unfold curTotalLeftMs turnColor
  split <;> rfl

namespace PageClocks
variable {k : PageClocks} {r r' : Room} {base now : Rat} {color : Chess} {resp m : Members}

/-- The player to move is shown no less time than the server gives. -/
structure OnTime (base : Rat) (r : Room) (k : PageClocks) : Prop where
  step : base + msOf r.turnStartTp + FiveStones.stepInitMs ≤ k.lastTickMs + k.stepLeft r.turnColor
  total : base + msOf r.turnStartTp + r.curTotalLeftMs ≤ k.lastTickMs + k.totalLeft r.turnColor

theorem OnTime.stop (h : OnTime base r k) : OnTime base r k.stop := ⟨h.step, h.total⟩

theorem OnTime.finish (h : OnTime base r k) : OnTime base r k.finish := ⟨h.step, h.total⟩

/-- What a tick takes from the clock it adds to the last tick. -/
theorem OnTime.countDown (h : OnTime base r k) (now : Rat) : OnTime base r (k.countDown r.turnColor now) := by
  obtain ⟨hstep, htotal⟩ := h
  cases hcolor : r.turnColor with
  | white =>
    rw [hcolor] at hstep htotal
    simp only [stepLeft, totalLeft] at hstep htotal
    constructor
    · simp only [hcolor, PageClocks.countDown, stepLeft]
      linarith [le_max_right 0 (k.stepLeftWhiteMs - (now - k.lastTickMs))]
    · simp only [hcolor, PageClocks.countDown, totalLeft]
      linarith [le_max_right 0 (k.totalLeftWhiteMs - (now - k.lastTickMs))]
  | black =>
    rw [hcolor] at hstep htotal
    simp only [stepLeft, totalLeft] at hstep htotal
    constructor
    · simp only [hcolor, PageClocks.countDown, stepLeft]
      linarith [le_max_right 0 (k.stepLeftBlackMs - (now - k.lastTickMs))]
    · simp only [hcolor, PageClocks.countDown, totalLeft]
      linarith [le_max_right 0 (k.totalLeftBlackMs - (now - k.lastTickMs))]

theorem number_of_get {name : String} {n : Nat} (old : Rat) (h : resp.get name = .int n) :
    resp.number name old = n := by
  simp [Members.number, Members.lookup_of_get h (by simp), Json.toNumber?]

/-- The clocks that a move starts. -/
theorem onTime_started {winner : Uid} (hannounced : Room.Announced m r winner resp)
    (hnow : base + msOf r.turnStartTp ≤ now) :
    OnTime base r (((k.take resp).renewStep (some r.turnColor)).start now) := by
  have hstep := number_of_get k.stepInitMs hannounced.step
  have hwhite := number_of_get k.totalLeftWhiteMs hannounced.white
  have hblack := number_of_get k.totalLeftBlackMs hannounced.black
  have htotal := r.curTotalLeftMs_eq
  constructor
  · cases hcolor : r.turnColor <;> simp only [renewStep, start, take, stepLeft, hstep] <;> linarith
  · rw [htotal]
    cases hcolor : r.turnColor <;> simp only [renewStep, start, take, totalLeft, hwhite, hblack] <;> linarith

end PageClocks

namespace RoomInfo
variable {room : RoomInfo} {who : Party} {r : Room}

theorem Names.seatColor? (h : room.Names who r) (hexact : ∀ u, r.Seats u → Exact u) (hturn : r.Seats r.turnUid) :
    room.seatColor? (.uint r.turnUid) = some r.turnColor := by
  have hu := hexact _ hturn
  rw [RoomInfo.seatColor?, h.whiteId, h.blackId, Json.sameId_uint hu (hexact _ (Or.inl rfl)),
    Json.sameId_uint hu (hexact _ (Or.inr rfl)), Room.turnColor]
  by_cases hw : r.turnUid = r.whiteId
  · simp [hw]
  · rw [decide_eq_false hw, decide_eq_true (hturn.resolve_left hw), if_neg hw]
    rfl

end RoomInfo

namespace Page
variable {p : Page} {who : Party} {r : Room} {base now : Rat} {msg : Members} {room : RoomInfo}

/-- The branches of a tick: nothing but the timer, or the clock of the player who is thinking, with a report at most. -/
theorem tickClock_cases (now : Rat) :
    ((p.tickClock now).2 = none ∧ ((p.tickClock now).1.clocks = p.clocks.stop ∨
      (p.timingStarted = true ∧ p.isOver = false ∧ ∃ room, p.roomInfo = some room ∧ room.seatColor? p.activeThinkingUid = none))) ∨
    (p.timingStarted = true ∧ p.isOver = false ∧ ∃ room color, p.roomInfo = some room ∧
      room.seatColor? p.activeThinkingUid = some color ∧
      ((p.tickClock now).1.clocks = p.clocks.countDown color now ∨ (p.tickClock now).1.clocks = (p.clocks.countDown color now).finish) ∧
      ∀ msg, (p.tickClock now).2 = some msg → (∃ which, msg = room.sendTimeout which) ∧
        p.activeThinkingUid.sameId room.uid = true ∧
        ((p.tickClock now).1.clocks.stepLeft color ≤ 0 ∨ (p.tickClock now).1.clocks.totalLeft color ≤ 0)) := by
  unfold tickClock
  split
  · exact Or.inl ⟨rfl, Or.inl rfl⟩
  rename_i hrun
  simp only [Bool.or_eq_true, Bool.not_eq_true', not_or, Bool.not_eq_false, Bool.not_eq_true] at hrun
  split
  · exact Or.inl ⟨rfl, Or.inl rfl⟩
  rename_i room hroom
  split
  · exact Or.inl ⟨rfl, Or.inl rfl⟩
  split
  · rename_i hcolor
    exact Or.inl ⟨rfl, Or.inr ⟨hrun.1, hrun.2, room, hroom, hcolor⟩⟩
  rename_i color hcolor
  refine Or.inr ⟨hrun.1, hrun.2, room, color, hroom, hcolor, ?_⟩
  unfold reportTimeout
  simp only
  split
  · rename_i hup
    simp only [Bool.and_eq_true, Bool.or_eq_true, decide_eq_true_eq] at hup
    split
    · rename_i hown
      simp only [Bool.and_eq_true] at hown
      refine ⟨Or.inr rfl, fun msg hmsg => ⟨⟨_, (Option.some.inj hmsg).symm⟩, hown.2, hup.2⟩⟩
    · exact ⟨Or.inr rfl, fun msg hmsg => by cases hmsg⟩
  · exact ⟨Or.inl rfl, fun msg hmsg => by cases hmsg⟩

end Page

/-! ### The turn and its announcement -/

/-- A message that every page only shows. -/
def Members.Idle (info : Members) : Prop := ∀ (p : Page) (now : Rat), p.onMessage info now = p

/-- The announcement of the move with which the turn began. -/
structure Room.Opens (r : Room) (info : Members) : Prop where
  optype : info.get "optype" = .str "put_chess"
  cell : ∃ c : Cell, info.get "row" = .int c.row ∧ info.get "col" = .int c.col
  announced : ∃ m, Room.Announced m r 0 info

theorem Room.opens_moved {r r' : Room} {env : Env} {m resp : Members} {room : RoomInfo} {uid uid' : Uid} {c : Cell}
    {color : Chess} (hm : room.Sends m) (huid : room.uid = .uint uid) (places : r.Places env m uid' c color)
    (hannounced : Room.Announced m r' 0 resp) : r'.Opens resp := by
  obtain ⟨rfl, hrow, hcol, -, hop⟩ := places.of_sends hm huid
  have same := hannounced.same
  exact ⟨(same "optype" (by decide)).trans hop, ⟨_, (same "row" (by decide)).trans hrow, (same "col" (by decide)).trans hcol⟩,
    _, hannounced⟩

/-- Where a player's page stands in the turn: the announcement is on its way, or the page counts, with the clocks as `P`
    says. -/
inductive Client.InTurn (P : Room → PageClocks → Prop) (r : Room) (c : Client) : Prop
  | pending {pre post : List Members} {info : Members} :
      c.inbox = pre ++ info :: post → r.Opens info → (∀ info ∈ post, info.Idle) → InTurn P r c
  | counting : (∀ info ∈ c.inbox, info.Idle) → P r c.page.clocks → InTurn P r c

theorem Page.catchUp_idle {p : Page} {infos : List Members} (h : ∀ info ∈ infos, info.Idle) : p.catchUp infos = p := by
  induction infos with
  | nil => rfl
  | cons info infos ih =>
    rw [Page.catchUp, List.foldl_cons, h info List.mem_cons_self]
    exact ih fun info' hi => h info' (List.mem_cons_of_mem _ hi)

namespace Client.InTurn
variable {P : Room → PageClocks → Prop} {base now : Rat} {r r' : Room} {c c' : Client} {info resp : Members}
  {rest : List Members} {uid : Uid}

/-- Nothing that the clocks depend on. -/
theorem of_frame (h : c.InTurn P r) (hclocks : c'.page.clocks = c.page.clocks) (hinbox : c'.inbox = c.inbox) :
    c'.InTurn P r := by
  cases h with
  | pending hin hopens hidle => exact .pending (hinbox.trans hin) hopens hidle
  | counting hidle hcount => exact .counting (hinbox ▸ hidle) (hclocks ▸ hcount)

theorem of_spectators {spectatorConns : Dict Uid ConnId} (h : c.InTurn P r)
    (hP : ∀ k, P r k → P { r with spectatorConns } k) : c.InTurn P { r with spectatorConns } := by
  cases h with
  | pending hin hopens hidle =>
    obtain ⟨hop, hcell, m, hannounced⟩ := hopens
    exact .pending hin ⟨hop, hcell, m, { hannounced with }⟩ hidle
  | counting hidle hcount => exact .counting hidle (hP _ hcount)

theorem receive (h : c.InTurn P r) (hidle : resp.Idle) : (c.receive [resp]).InTurn P r := by
  have hsnoc : ∀ {infos : List Members}, (∀ i ∈ infos, i.Idle) → ∀ i ∈ infos ++ [resp], i.Idle := by
    intro infos hinfos i hi
    rcases List.mem_append.mp hi with hi | hi
    · exact hinfos i hi
    · rw [List.mem_singleton.mp hi]
      exact hidle
  cases h with
  | @pending pre post info hin hopens hpost =>
    have happend : (c.receive [resp]).inbox = pre ++ info :: (post ++ [resp]) := by simp [Client.receive, hin]
    exact .pending happend hopens (hsnoc hpost)
  | counting hin hcount => exact .counting (hsnoc hin) hcount

/-- When the announcement is read, the page counts for the player whose turn it is. -/
theorem read (h : c.InTurn P r) (hinbox : c.inbox = info :: rest) (hexact : ∀ u, r.Seats u → Exact u)
    (hturn : r.Seats r.turnUid) (hrun : r.statu = .gameStart) (ht : r.timingStarted = true)
    (hshows : (c.page.catchUp c.inbox).Mirrors (.player uid) r)
    (hP : ∀ {m : Members}, Room.Announced m r 0 info →
      P r (((c.page.clocks.take info).renewStep (some r.turnColor)).start now)) :
    { c with page := c.page.onMessage info now, inbox := rest }.InTurn P r := by
  cases h with
  | counting hidle hcount =>
    have hinfo := hidle info (hinbox ▸ List.mem_cons_self)
    refine .counting (fun i hi => hidle i (hinbox ▸ List.mem_cons_of_mem _ hi)) ?_
    rw [hinfo]
    exact hcount
  | @pending pre post opening hin hopens hidle =>
    cases pre with
    | cons first pre =>
      obtain ⟨rfl, rfl⟩ := List.cons.inj (hinbox.symm.trans hin)
      exact .pending rfl hopens hidle
    | nil =>
      obtain ⟨rfl, rfl⟩ := List.cons.inj (hinbox.symm.trans hin)
      refine .counting hidle ?_
      obtain ⟨hop, ⟨cell, hrow, hcol⟩, m, hannounced⟩ := hopens
      -- What the page shows after the announcement is what it shows after all that it has not read.
      have hread : ∀ t, c.page.onMessage info t = c.page.handlePutChess info t := fun t => by
        rw [Page.onMessage_eq hannounced.result hop, if_pos rfl]
      have hmirrors : (c.page.handlePutChess info 0).Mirrors (.player uid) r := by
        rw [hinbox, Page.catchUp, List.foldl_cons, hread] at hshows
        rwa [← Page.catchUp_idle (p := c.page.handlePutChess info 0) hidle]
      obtain ⟨room, hroom, hnames⟩ := hmirrors.info
      rw [Page.handlePutChess_frame.1] at hroom
      have htiming : info.get "timing_started" = .bool true := ht ▸ hannounced.timing
      have hmoved := fun t => Page.handlePutChess_moved t hroom hrow hcol htiming hannounced.winner
      have hactive : Page.nextUid room (info.get "uid") = .uint r.turnUid := by
        have h := (hmirrors.active hrun (by rw [hmoved])).2
        rwa [hmoved] at h
      rw [hread, hmoved, hactive, hnames.seatColor? hexact hturn]
      exact hP hannounced

/-- A tick counts for the player whose turn it is. -/
theorem tick (h : c.InTurn (PageClocks.OnTime base) r) (hexact : ∀ u, r.Seats u → Exact u) (hturn : r.Seats r.turnUid)
    (hrun : r.statu = .gameStart) (hshows : (c.page.catchUp c.inbox).Mirrors (.player uid) r) (now : Rat) :
    { c with page := (c.page.tickClock now).1 }.InTurn (PageClocks.OnTime base) r := by
  cases h with
  | pending hin hopens hidle => exact .pending hin hopens hidle
  | counting hidle htime =>
    rw [Page.catchUp_idle hidle] at hshows
    refine .counting hidle ?_
    obtain ⟨room, hroom, hnames⟩ := hshows.info
    have hcolor : c.page.timingStarted = true → room.seatColor? c.page.activeThinkingUid = some r.turnColor := fun ht => by
      rw [(hshows.active hrun ht).2, hnames.seatColor? hexact hturn]
    rcases Page.tickClock_cases (p := c.page) now with ⟨-, hstop | ⟨ht, -, room', hroom', hnone⟩⟩ |
      ⟨ht, -, room', color, hroom', hsome, hcount, -⟩
    · simp only [hstop]
      exact htime.stop
    · obtain rfl := Option.some.inj (hroom.symm.trans hroom')
      cases hnone.symm.trans (hcolor ht)
    · obtain rfl := Option.some.inj (hroom.symm.trans hroom')
      obtain rfl := Option.some.inj (hsome.symm.trans (hcolor ht))
      rcases hcount with hcount | hcount
      · simp only [hcount]
        exact htime.countDown now
      · simp only [hcount]
        exact (htime.countDown now).finish

/-- What the room tells leaves the clocks as they are, ends them, or begins the next turn. -/
theorem told {env : Env} {m : Members} {room : RoomInfo} (hm : room.Sends m) (huid : room.uid = .uint uid)
    (htells : r.Tells env m r' resp) (hrun : r'.statu = .gameStart) (ht : r'.timingStarted = true)
    (h : r.statu = .gameStart → r.timingStarted = true → c.InTurn P r) : (c.receive [resp]).InTurn P r' := by
  cases htells with
  | refused hres => exact (h hrun ht).receive fun p now => Page.onMessage_refused hres
  | chatted hres hop =>
    refine (h hrun ht).receive fun p now => ?_
    rw [Page.onMessage_eq hres hop]
    cases p.isSpectator <;> rfl
  | timedOut | walkover | won => cases hrun
  | moved places _ hannounced => exact .pending rfl (Room.opens_moved hm huid places hannounced) fun _ h => by cases h
  | invited _ _ hover => exact Room.absurd_statu hrun hover
  | accepted => cases ht

end Client.InTurn

/-- A turn begins when the move before it has been handled. -/
theorem Room.Tells.begun {env : Env} {r r' : Room} {m resp : Members} (h : r.Tells env m r' resp)
    (hold : r.timingStarted = true → r.turnStartTp ≤ env.later ∧ Reading r.turnStartTp) (hlater : Reading env.later)
    (ht : r'.timingStarted = true) : r'.turnStartTp ≤ env.later ∧ Reading r'.turnStartTp := by
  cases h with
  | refused | chatted | timedOut | walkover | won | invited => exact hold ht
  | moved =>
    rw [passTurn_eq]
    exact ⟨le_rfl, hlater⟩
  | accepted => cases ht

namespace Duel
variable {base : Party → Rat} {d d' : Duel} {w b : Uid} {who : Party} {calls : List Call} {c' : Client} {r : Room}
  {ts : List DuelTrans} {resp : Members}

/-- Every player who still has the page before them is timed. -/
structure Prompt (base : Party → Rat) (d : Duel) : Prop where
  begun : d.room.timingStarted = true → d.room.turnStartTp ≤ d.clock ∧ Reading d.room.turnStartTp
  timed : ∀ uid, d.hears (.player uid) = true → (d.clients (.player uid)).shown = true → d.room.statu = .gameStart →
    d.room.timingStarted = true → (d.clients (.player uid)).InTurn (PageClocks.OnTime (base (.player uid))) d.room

/-- A client does something by itself, not before the last reading of the server's clock. -/
theorem Prompt.put {t : Int} (h : d.Prompt base) (ht : d.clock ≤ t)
    (hlive : c'.line = .live → (d.clients who).line = .live) (hshown : c'.shown = true → (d.clients who).shown = true)
    (htimed : ∀ uid, who = .player uid → d.hears who = true → (d.clients who).shown = true → d.room.statu = .gameStart →
      d.room.timingStarted = true → (d.clients who).InTurn (PageClocks.OnTime (base who)) d.room →
      c'.InTurn (PageClocks.OnTime (base who)) d.room) :
    { d.put who c' with clock := t }.Prompt base where
  begun hstarted := ⟨(h.begun hstarted).1.trans ht, (h.begun hstarted).2⟩
  timed uid hhears hshown' hrun hstarted := by
    change (d.put who c').hears (.player uid) = true at hhears
    change ((d.put who c').clients (.player uid)).shown = true at hshown'
    change ((d.put who c').clients (.player uid)).InTurn _ d.room
    by_cases hwho : Party.player uid = who
    · subst hwho
      have hline := hears_live hhears
      rw [put_self] at hline hshown' ⊢
      have hhears' : d.hears (.player uid) = true := hears_of hhears rfl (by rw [put_self, hline, hlive hline])
      exact htimed uid rfl hhears' (hshown hshown') hrun hstarted (h.timed uid hhears' (hshown hshown') hrun hstarted)
    · rw [put_ne hwho] at hshown' ⊢
      exact h.timed uid (hears_of hhears rfl (by rw [put_ne hwho])) hshown' hrun hstarted

/-- The room has answered, and everyone is told. -/
theorem Prompt.announce {t : Int} (hr : Around d.room r) (hcalls : broadcasts calls = [resp])
    (hbegun : r.timingStarted = true → r.turnStartTp ≤ t ∧ Reading r.turnStartTp)
    (htold : ∀ uid, d.hears (.player uid) = true → (d.clients (.player uid)).shown = true → r.statu = .gameStart →
      r.timingStarted = true → ((d.clients (.player uid)).receive [resp]).InTurn (PageClocks.OnTime (base (.player uid))) r) :
    ({ d with room := r, clock := t }.announce calls).Prompt base where
  begun := hbegun
  timed uid hhears hshown hrun hstarted := by
    have hhears' := hears_of_announce hr hcalls hhears
    rw [announce_client hr hcalls, if_pos hhears'] at hshown ⊢
    exact htold uid hhears' hshown hrun hstarted

/-- A new spectator, or one less. -/
theorem Prompt.of_watcher {spectatorConns : Dict Uid ConnId} (h : d.Prompt base) (uid : Uid)
    (hroom : d'.room = { d.room with spectatorConns }) (hclock : d'.clock = d.clock)
    (hothers : ∀ who', who' ≠ .watcher uid → d'.clients who' = d.clients who') : d'.Prompt base where
  begun := by
    rw [hroom, hclock]
    exact h.begun
  timed uid' hhears hshown hrun hstarted := by
    have hclient : d'.clients (.player uid') = d.clients (.player uid') := hothers _ (by simp)
    have hhears' : d.hears (.player uid') = true := by
      simp only [hears, hclient, hroom] at hhears
      exact hhears
    rw [hroom] at hrun hstarted ⊢
    rw [hclient] at hshown ⊢
    exact (h.timed uid' hhears' hshown hrun hstarted).of_spectators fun _ htime => ⟨htime.step, htime.total⟩

theorem Prompt.step {e : DuelEvent} (hp : Players w b) (hsound : d.Sound w b) (h : d.Prompt base)
    (htimely : e.Timely base) (hs : machine.step d e = some (d', calls)) : d'.Prompt base := by
  have hfit := hp.fit hsound.seated
  have hturn : d.room.Seats d.room.turnUid := hsound.seated.turn
  cases step_inv hs with
  | @read _ now perf _ _ hinbox _ hclock =>
    refine h.put hclock (fun hline => hline) (fun hshown => hshown) fun uid hwho hhears hshown hrun hstarted htimed => ?_
    subst hwho
    have hnow := msOf_mono ((h.begun hstarted).1.trans hclock)
    have hbegan : base (.player uid) + msOf d.room.turnStartTp ≤ perf := by
      have hperf : base (.player uid) + msOf now ≤ perf := htimely
      linarith
    exact htimed.read hinbox hfit.exact hturn hrun hstarted (hsound.shows _ hhears hshown)
      fun hannounced => PageClocks.onTime_started hannounced hbegan
  | tick _ hclock =>
    refine h.put hclock (fun hline => hline) (fun hshown => hshown) fun uid hwho hhears hshown hrun _ htimed => ?_
    subst hwho
    exact (htimed.tick hfit.exact hturn hrun (hsound.shows _ hhears hshown) _).of_frame rfl rfl
  | act => exact h.put le_rfl (fun hline => hline) (fun hshown => hshown) fun _ _ _ _ _ _ htimed => htimed.of_frame rfl rfl
  | @serve uid _ _ _ msg rest _ _ hout _ hnow hlater hreq =>
    obtain ⟨info, hid, huid, hsends⟩ := hsound.sends uid msg (hout ▸ List.mem_cons_self)
    obtain ⟨-, -, hwinner, hop⟩ := hsends.get
    obtain ⟨resp, hcalls, htells⟩ := Room.handleRequest_tells hfit.white hfit.black hwinner hop hreq
    have hpop : { d.put (.player uid) { d.clients (.player uid) with outbox := rest } with clock := d.clock }.Prompt base :=
      h.put le_rfl (fun hline => hline) (fun hshown => hshown) fun _ _ _ _ _ _ htimed => htimed.of_frame rfl rfl
    refine Prompt.announce (around_tells htells) hcalls (htells.begun (fun hstarted => ?_) htimely.2)
      fun uid' hhears hshown hrun hstarted => .told hsends huid htells hrun hstarted (hpop.timed uid' hhears hshown)
    exact ⟨(h.begun hstarted).1.trans (hnow.trans hlater), (h.begun hstarted).2⟩
  | leave =>
    refine h.put le_rfl (fun hline => hline) (fun hshown => by cases hshown) fun _ _ _ _ _ _ htimed => ?_
    cases htimed with
    | pending hin hopens hidle => exact .pending hin hopens hidle
    | counting hidle htime => exact .counting hidle htime.finish
  | vanish hlive =>
    exact h.put le_rfl (fun _ => hlive) (fun hshown => hshown) fun _ _ _ _ _ _ htimed => htimed.of_frame rfl rfl
  | @exit uid =>
    obtain ⟨resp, hcalls, -⟩ := Page.told_exit hfit uid
    refine Prompt.announce (d := d.put (.player uid) { d.clients (.player uid) with line := .closed }) (around_exit _ _) hcalls ?_ ?_
    · rw [Room.handleExit_fst]
      exact h.begun
    · intro _ _ _ hrun
      rw [Room.handleExit_fst] at hrun
      cases hrun
  | @watch uid _ _ _ _ hroom =>
    subst hroom
    exact h.of_watcher uid rfl rfl fun who' hwho => put_ne hwho
  | @unwatch uid => exact h.of_watcher uid rfl rfl fun who' hwho => put_ne hwho

theorem step_roomId {e : DuelEvent} (hs : machine.step d e = some (d', calls)) : d'.room.roomId = d.room.roomId := by
  cases step_inv hs with
  | read | tick | act | leave | vanish | unwatch => rfl
  | serve _ _ _ _ hreq => exact (Room.handleRequest_keeps hreq).roomId
  | @exit uid => exact (Room.handleExit_keeps d.room uid).roomId
  | watch _ hroom =>
    subst hroom
    rfl

/-! ### Runs -/

variable {roomId : Nat} {now : Int} {selectById : Uid → Option Members}

theorem run_roomId (h : machine.Run (start roomId w b now selectById) ts d) : d.room.roomId = roomId :=
  h.invariant (I := fun d => d.room.roomId = roomId) rfl fun hi hs => (step_roomId hs).trans hi

/-- The server agrees with a report, then or later. -/
theorem timeout_of_report {r : Room} {room : RoomInfo} {which : String} {now : Int} {perf base : Rat} {env : Env}
    (hid : r.roomId < 2 ^ 64) (hroom : room.roomId = .int r.roomId) (huid : room.uid = .uint r.turnUid)
    (hrun : r.statu = .gameStart) (hstarted : r.timingStarted = true)
    (hup : base + msOf r.turnStartTp + FiveStones.stepInitMs ≤ perf ∨ base + msOf r.turnStartTp + r.curTotalLeftMs ≤ perf)
    (hperf : perf ≤ base + msOf now + timeoutToleranceMs) (hstart : r.turnStartTp ≤ now) (hlow : Reading r.turnStartTp)
    (hnow : now ≤ env.now) (hhigh : Reading env.now) :
    ∃ late, r.handleRequest env (.obj (room.sendTimeout which)) = .ok (r.timedOut late) := by
  have asks : r.Asks (room.sendTimeout which) "timeout" := by
    refine ⟨⟨.ofNat r.roomId, ?_, ?_⟩, rfl⟩
    · change room.roomId.asUInt64 = _
      rw [hroom, Json.asUInt64, if_pos (by omega)]
      rfl
    · exact UInt64.toNat_ofNat_of_lt' hid
  have hnames : ((room.sendTimeout which).get "uid").asUInt64 = .ok r.turnUid := by
    change room.uid.asUInt64 = _
    rw [huid, Json.asUInt64_uint]
  have hexp : (Room.stepExpired ((elapsedMs env.now r.turnStartTp + timeoutToleranceMs) % 2 ^ 64) ||
      r.totalExpired ((elapsedMs env.now r.turnStartTp + timeoutToleranceMs) % 2 ^ 64)) = true := by
    simp only [Room.stepExpired, Room.totalExpired, Bool.or_eq_true, decide_eq_true_eq]
    exact hup.imp (fun hup => late_of_counted hup hperf hstart hnow hlow hhigh)
      fun hup => late_of_counted hup hperf hstart hnow hlow hhigh
  exact ⟨_, (Room.handleRequest_eq env asks).trans ((if_neg (by decide)).trans ((if_pos rfl).trans
    (Room.timeout_late hrun hstarted rfl hexp hnames)))⟩

end Duel
end FiveStones
