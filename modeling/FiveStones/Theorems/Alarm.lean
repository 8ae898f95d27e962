import FiveStones.Theorems.Delivery

/-! The time of a player who does not move: the page of that player reports it, and the game ends. -/

namespace FiveStones

namespace PageClocks
variable {k : PageClocks} {color : Chess} {now : Rat}

theorem lastTickMs_countDown : (k.countDown color now).lastTickMs = now := by cases color <;> rfl

theorem ticking_countDown : (k.countDown color now).ticking = k.ticking := by cases color <;> rfl

theorem timeoutSent_countDown : (k.countDown color now).timeoutSent = k.timeoutSent := by cases color <;> rfl

end PageClocks

namespace Page
variable {p : Page} {r : Room} {uid : Uid} {room : RoomInfo} {color : Chess} {now : Rat}

/-- The report of a page, which has not reported yet, that its own player's time is up. -/
theorem reportTimeout_own (hside : p.isSpectator = false) (hown : p.activeThinkingUid.sameId room.uid = true)
    (hsent : p.clocks.timeoutSent = false) (hup : p.clocks.stepLeft color ≤ 0 ∨ p.clocks.totalLeft color ≤ 0) :
    ∃ which, p.reportTimeout room color = ({ p with clocks := p.clocks.finish }, some (room.sendTimeout which)) := by
  have hcond : (!p.clocks.timeoutSent && (decide (p.clocks.stepLeft color ≤ 0) || decide (p.clocks.totalLeft color ≤ 0))) = true := by
    simpa [hsent] using hup
  refine ⟨if p.clocks.stepLeft color ≤ 0 then "step" else "total", ?_⟩
  simp only [reportTimeout, if_pos hcond, hside, hown, Bool.not_false, Bool.and_self, ↓reduceIte]

theorem reportTimeout_early (hup : ¬(p.clocks.stepLeft color ≤ 0 ∨ p.clocks.totalLeft color ≤ 0)) :
    p.reportTimeout room color = (p, none) := by
  rw [not_or] at hup
  simp [reportTimeout, hup]

/-- A tick of the page of the player to move counts for this player. -/
theorem tickClock_turn (h : p.Mirrors (.player r.turnUid) r) (hexact : ∀ u, r.Seats u → Exact u) (hturn : r.Seats r.turnUid)
    (hne : r.turnUid ≠ 0) (hrun : r.statu = .gameStart) (ht : r.timingStarted = true) (now : Rat) :
    ∃ room : RoomInfo, room.roomId = .int r.roomId ∧ room.uid = .uint r.turnUid ∧ p.isSpectator = false ∧
      p.activeThinkingUid.sameId room.uid = true ∧
      p.tickClock now = { p with clocks := p.clocks.countDown r.turnColor now }.reportTimeout room r.turnColor := by
  obtain ⟨room, hroom, hnames⟩ := h.info
  have hstarted := h.timed _ rfl hrun ht
  have hactive := (h.active hrun hstarted).2
  have hside : p.isSpectator = false := by
    rw [← Bool.not_eq_true, h.side]
    rintro ⟨_, hwho⟩
    cases hwho
  have hover : p.isOver = false := by
    rw [← Bool.not_eq_true, h.isOver, hrun]
    simp
  have htruthy : (Json.uint r.turnUid).truthy = true := by
    have hne : r.turnUid.toNat ≠ 0 := fun h => hne (UInt64.toNat_inj.mp h)
    simpa [Json.truthy, Json.uint] using hne
  refine ⟨room, hnames.roomId, hnames.uid _ rfl, hside, ?_, ?_⟩
  · rw [hactive, hnames.uid _ rfl, Json.sameId_uint (hexact _ hturn) (hexact _ hturn), decide_eq_true rfl]
  · simp only [tickClock, hstarted, hover, hroom, htruthy, hactive, hnames.seatColor? hexact hturn, Bool.not_true, Bool.or_self,
      Bool.false_eq_true, ↓reduceIte]

end Page

/-- The clocks of a page that has not reported in this turn: they run, and show no less time than the server gives. -/
structure PageClocks.Counts (base : Rat) (r : Room) (k : PageClocks) : Prop where
  onTime : k.OnTime base r
  ticking : k.ticking = true
  timeoutSent : k.timeoutSent = false

/-- The page of the player to move has told the server that the time is up, and the server will find so too. -/
def Client.Reported (base : Rat) (clock : Int) (r : Room) (c : Client) : Prop :=
  ∃ (room : RoomInfo) (which : String) (now : Int) (perf : Rat),
    room.roomId = .int r.roomId ∧ room.uid = .uint r.turnUid ∧ room.sendTimeout which ∈ c.outbox ∧
      (base + msOf r.turnStartTp + stepInitMs ≤ perf ∨ base + msOf r.turnStartTp + r.curTotalLeftMs ≤ perf) ∧
      perf ≤ base + msOf now + timeoutToleranceMs ∧ r.turnStartTp ≤ now ∧ now ≤ clock

/-- The page of the player to move watches the time of its player: it counts, or is about to, or has reported. -/
def Client.Alert (base : Rat) (clock : Int) (r : Room) (c : Client) : Prop :=
  c.InTurn (PageClocks.Counts base) r ∨ c.Reported base clock r

namespace Client
variable {base perf : Rat} {clock clock' now : Int} {r r' : Room} {c c' : Client} {info resp : Members} {rest : List Members}
  {uid : Uid}

theorem Reported.of_frame (h : c.Reported base clock r) (hclock : clock ≤ clock') (hout : ∀ msg ∈ c.outbox, msg ∈ c'.outbox) :
    c'.Reported base clock' r := by
  obtain ⟨room, which, now, perf, hroom, huid, hmem, hup, hperf, hstart, hnow⟩ := h
  exact ⟨room, which, now, perf, hroom, huid, hout _ hmem, hup, hperf, hstart, hnow.trans hclock⟩

theorem Alert.of_frame (h : c.Alert base clock r) (hclock : clock ≤ clock') (hclocks : c'.page.clocks = c.page.clocks)
    (hinbox : c'.inbox = c.inbox) (hout : ∀ msg ∈ c.outbox, msg ∈ c'.outbox) : c'.Alert base clock' r :=
  h.imp (fun h => h.of_frame hclocks hinbox) fun h => h.of_frame hclock hout

theorem mem_send {msg : Option Members} {m : Members} (hmem : m ∈ c.outbox) : m ∈ (c.send msg).outbox := by
  simp only [send]
  split
  · exact List.mem_append_left _ hmem
  · exact hmem

theorem Alert.of_spectators {spectatorConns : Dict Uid ConnId} (h : c.Alert base clock r) :
    c.Alert base clock { r with spectatorConns } :=
  h.imp (fun h => h.of_spectators fun _ hcounts => ⟨⟨hcounts.onTime.step, hcounts.onTime.total⟩, hcounts.ticking, hcounts.timeoutSent⟩) id

/-- The page counts down, and reports when there is no time left. -/
theorem Alert.tick (h : c.Alert base clock r) (hclock : clock ≤ now) (hstart : r.turnStartTp ≤ now)
    (hperf : perf ≤ base + msOf now + timeoutToleranceMs) (hexact : ∀ u, r.Seats u → Exact u) (hturn : r.Seats r.turnUid)
    (hne : r.turnUid ≠ 0) (hrun : r.statu = .gameStart) (ht : r.timingStarted = true) (hlive : c.line = .live)
    (hshows : (c.page.catchUp c.inbox).Mirrors (.player r.turnUid) r) :
    ({ c with page := (c.page.tickClock perf).1 }.send (c.page.tickClock perf).2).Alert base now r := by
  rcases h with (⟨hin, hopens, hidle⟩ | ⟨hidle, htime, hticking, hsent⟩) | hreported
  · exact Or.inl (.pending hin hopens hidle)
  · rw [Page.catchUp_idle hidle] at hshows
    obtain ⟨room, hroom, huid, hside, hown, htick⟩ := Page.tickClock_turn hshows hexact hturn hne hrun ht perf
    have htime' := htime.countDown perf
    by_cases hup : (c.page.clocks.countDown r.turnColor perf).stepLeft r.turnColor ≤ 0 ∨
        (c.page.clocks.countDown r.turnColor perf).totalLeft r.turnColor ≤ 0
    · obtain ⟨which, hreport⟩ := Page.reportTimeout_own (p := { c.page with clocks := c.page.clocks.countDown r.turnColor perf })
        hside hown (PageClocks.timeoutSent_countDown.trans hsent) hup
      obtain ⟨hstep, htotal⟩ := htime'
      rw [PageClocks.lastTickMs_countDown] at hstep htotal
      refine Or.inr ⟨room, which, now, perf, hroom, huid, ?_, ?_, hperf, hstart, le_rfl⟩
      · rw [htick, hreport]
        simp [send, hlive]
      · exact hup.imp (fun hup => by linarith) fun hup => by linarith
    · rw [htick, Page.reportTimeout_early hup]
      exact Or.inl (.counting hidle
        ⟨htime', PageClocks.ticking_countDown.trans hticking, PageClocks.timeoutSent_countDown.trans hsent⟩)
  · exact Or.inr (hreported.of_frame hclock fun _ => mem_send)

theorem Alert.read (h : c.Alert base clock r) (hclock : clock ≤ clock') (hinbox : c.inbox = info :: rest)
    (hexact : ∀ u, r.Seats u → Exact u) (hturn : r.Seats r.turnUid) (hrun : r.statu = .gameStart) (ht : r.timingStarted = true)
    (hshows : (c.page.catchUp c.inbox).Mirrors (.player uid) r) (hperf : base + msOf r.turnStartTp ≤ perf) :
    { c with page := c.page.onMessage info perf, inbox := rest }.Alert base clock' r :=
  h.imp (fun h => h.read hinbox hexact hturn hrun ht hshows fun hannounced => ⟨PageClocks.onTime_started hannounced hperf, rfl, rfl⟩)
    fun h => h.of_frame hclock fun _ hmem => hmem

/-- What the room tells the page of the player to move. -/
theorem Alert.told {env : Env} {m : Members} {room : RoomInfo} (hm : room.Sends m) (huid : room.uid = .uint uid)
    (htells : r.Tells env m r' resp) (hrun : r'.statu = .gameStart) (ht : r'.timingStarted = true)
    (h : r' = r → c.Alert base clock r) : (c.receive [resp]).Alert base clock r' := by
  cases htells with
  | refused hres =>
    exact (h rfl).imp (fun h => h.receive fun p now => Page.onMessage_refused hres) fun h => h.of_frame le_rfl fun _ hmem => hmem
  | chatted hres hop =>
    refine (h rfl).imp (fun h => h.receive fun p now => ?_) fun h => h.of_frame le_rfl fun _ hmem => hmem
    rw [Page.onMessage_eq hres hop]
    cases p.isSpectator <;> rfl
  | timedOut | walkover | won => cases hrun
  | moved places _ hannounced =>
    exact Or.inl (.pending rfl (Room.opens_moved hm huid places hannounced) fun _ h => by cases h)
  | invited _ _ hover => exact Room.absurd_statu hrun hover
  | accepted => cases ht

end Client

namespace Duel
variable {base : Party → Rat} {d d' : Duel} {w b uid : Uid} {who : Party} {calls : List Call} {c' : Client} {r : Room}
  {ts : List DuelTrans} {resp msg : Members} {rest : List Members}

/-- Nobody's time runs out unwatched: the page of the player to move is alert, as long as the player has it before them. -/
structure Watched (base : Party → Rat) (d : Duel) : Prop where
  prompt : d.Prompt base
  alert : ∀ uid, uid = d.room.turnUid → d.hears (.player uid) = true → (d.clients (.player uid)).shown = true →
    d.room.statu = .gameStart → d.room.timingStarted = true →
    (d.clients (.player uid)).Alert (base (.player uid)) d.clock d.room

/-- A client does something by itself. -/
theorem alert_put {t : Int} (h : d.Watched base) (ht : d.clock ≤ t)
    (hlive : c'.line = .live → (d.clients who).line = .live) (hshown : c'.shown = true → (d.clients who).shown = true)
    (halert : ∀ uid, who = .player uid → uid = d.room.turnUid → d.hears who = true → c'.shown = true →
      d.room.statu = .gameStart → d.room.timingStarted = true → (d.clients who).Alert (base who) d.clock d.room →
      c'.Alert (base who) t d.room) (hturn : uid = d.room.turnUid) (hhears : (d.put who c').hears (.player uid) = true)
    (hshown' : ((d.put who c').clients (.player uid)).shown = true) (hrun : d.room.statu = .gameStart)
    (hstarted : d.room.timingStarted = true) : ((d.put who c').clients (.player uid)).Alert (base (.player uid)) t d.room := by
  by_cases hwho : Party.player uid = who
  · subst hwho
    have hline := hears_live hhears
    rw [put_self] at hline hshown' ⊢
    have hhears' : d.hears (.player uid) = true := hears_of hhears rfl (by rw [put_self, hline, hlive hline])
    exact halert uid rfl hturn hhears' hshown' hrun hstarted (h.alert uid hturn hhears' (hshown hshown') hrun hstarted)
  · rw [put_ne hwho] at hshown' ⊢
    exact (h.alert uid hturn (hears_of hhears rfl (by rw [put_ne hwho])) hshown' hrun hstarted).of_frame ht rfl rfl fun _ hmem => hmem

/-- A new spectator, or one less. -/
theorem alert_of_watcher {spectatorConns : Dict Uid ConnId} {v : Uid} (h : d.Watched base)
    (hroom : d'.room = { d.room with spectatorConns }) (hclock : d'.clock = d.clock)
    (hothers : ∀ who', who' ≠ .watcher v → d'.clients who' = d.clients who') (hturn : uid = d'.room.turnUid)
    (hhears : d'.hears (.player uid) = true) (hshown : (d'.clients (.player uid)).shown = true)
    (hrun : d'.room.statu = .gameStart) (hstarted : d'.room.timingStarted = true) :
    (d'.clients (.player uid)).Alert (base (.player uid)) d'.clock d'.room := by
  have hclient : d'.clients (.player uid) = d.clients (.player uid) := hothers _ (by simp)
  have hhears' : d.hears (.player uid) = true := by
    simp only [hears, hclient, hroom] at hhears
    exact hhears
  rw [hroom] at hturn hrun hstarted
  rw [hclient] at hshown
  rw [hclient, hclock, hroom]
  exact (h.alert uid hturn hhears' hshown hrun hstarted).of_spectators

/-- A report, once it is handled, ends the game. -/
theorem reported_served {base : Rat} {c : Client} {env : Env} {calls : List Call} {r' : Room}
    (hid : r.roomId < 2 ^ 64) (hrun : r.statu = .gameStart) (hstarted : r.timingStarted = true) (hlow : Reading r.turnStartTp)
    {clock : Int} (h : c.Reported base clock r) (hout : c.outbox = msg :: rest) (hnow : clock ≤ env.now) (hhigh : Reading env.now)
    (hreq : r.handleRequest env (.obj msg) = .ok (r', calls)) (hrun' : r'.statu = .gameStart) :
    Client.Reported base clock r { c with outbox := rest } := by
  obtain ⟨room, which, now, perf, hroom, huid, hmem, hup, hperf, hstart, hclock⟩ := h
  rw [hout] at hmem
  rcases List.mem_cons.mp hmem with rfl | hmem
  · obtain ⟨late, htimeout⟩ : ∃ late, r.handleRequest env (.obj (room.sendTimeout which)) = .ok (r.timedOut late) :=
      timeout_of_report hid hroom huid hrun hstarted hup hperf hstart hlow (hclock.trans hnow) hhigh
    obtain ⟨rfl, -⟩ := Prod.mk.inj (Except.ok.inj (hreq.symm.trans htimeout))
    cases hrun'
  · exact ⟨room, which, now, perf, hroom, huid, hmem, hup, hperf, hstart, hclock⟩

theorem Watched.step {e : DuelEvent} (hp : Players w b) (hsound : d.Sound w b) (hid : d.room.roomId < 2 ^ 64)
    (h : d.Watched base) (htimely : e.Timely base) (hs : machine.step d e = some (d', calls)) : d'.Watched base := by
  refine ⟨h.prompt.step hp hsound htimely hs, fun uid hturn hhears hshown hrun hstarted => ?_⟩
  have hfit := hp.fit hsound.seated
  have hseat : d.room.Seats d.room.turnUid := hsound.seated.turn
  have hbegun := h.prompt.begun
  cases step_inv hs with
  | @read _ now perf _ _ hinbox _ hclock =>
    refine alert_put h hclock (fun hline => hline) (fun hshown => hshown)
      (fun u hwho _ hhears' hshown' hrun' hstarted' halert => ?_) hturn hhears hshown hrun hstarted
    subst hwho
    have hbegan : base (.player u) + msOf d.room.turnStartTp ≤ perf := by
      have hnow := msOf_mono ((hbegun hstarted').1.trans hclock)
      have hperf : base (.player u) + msOf now ≤ perf := htimely
      linarith
    exact halert.read hclock hinbox hfit.exact hseat hrun' hstarted' (hsound.shows _ hhears' hshown') hbegan
  | tick _ hclock =>
    refine alert_put h hclock (fun hline => hline) (fun hshown => hshown)
      (fun u hwho hmover hhears' hshown' hrun' hstarted' halert => ?_) hturn hhears hshown hrun hstarted
    subst hwho hmover
    exact halert.tick hclock ((hbegun hstarted').1.trans hclock) htimely hfit.exact hseat (hfit.ne_zero hseat) hrun' hstarted'
      (hears_live hhears') (hsound.shows _ hhears' hshown')
  | act =>
    refine alert_put h le_rfl (fun hline => hline) (fun hshown => hshown)
      (fun _ _ _ _ _ _ _ halert => ?_) hturn hhears hshown hrun hstarted
    exact halert.of_frame le_rfl rfl rfl fun _ => Client.mem_send
  | @serve v _ now later msg rest room _ hout _ hnow hlater hreq =>
    obtain ⟨info, -, huid, hsends⟩ := hsound.sends v msg (hout ▸ List.mem_cons_self)
    obtain ⟨-, -, hwinner, hop⟩ := hsends.get
    obtain ⟨resp, hcalls, htells⟩ := Room.handleRequest_tells hfit.white hfit.black hwinner hop hreq
    have haround := around_tells htells
    have hhears' := hears_of_announce (d := d.put (.player v) { d.clients (.player v) with outbox := rest }) haround hcalls hhears
    rw [announce_client (d := d.put (.player v) { d.clients (.player v) with outbox := rest }) haround hcalls, if_pos hhears']
      at hshown ⊢
    refine .told hsends huid htells hrun hstarted fun hsame => ?_
    -- The turn is the same one, so what has been handled is not the report.
    have hturn' : uid = d.room.turnUid := hturn.trans (by rw [← hsame])
    have hrun' : d.room.statu = .gameStart := hsame ▸ hrun
    have hstarted' : d.room.timingStarted = true := hsame ▸ hstarted
    refine alert_put h (hnow.trans hlater) (fun hline => hline) (fun hshown => hshown)
      (fun u hwho _ _ _ _ _ halert => ?_) hturn' hhears' hshown hrun' hstarted'
    rcases halert with hin | hreported
    · exact Or.inl (hin.of_frame rfl rfl)
    · exact Or.inr ((reported_served hid hrun' hstarted' (hbegun hstarted').2 hreported hout hnow htimely.1 hreq hrun).of_frame
        (hnow.trans hlater) fun _ hmem => hmem)
  | leave =>
    exact alert_put h le_rfl (fun hline => hline) (fun hshown => by cases hshown) (fun _ _ _ _ hshown => by cases hshown)
      hturn hhears hshown hrun hstarted
  | vanish hlive =>
    refine alert_put h le_rfl (fun hline => by cases hline) (fun hshown => hshown)
      (fun _ _ _ _ _ _ _ halert => ?_) hturn hhears hshown hrun hstarted
    exact halert.of_frame le_rfl rfl rfl fun _ hmem => hmem
  | @exit v =>
    change (d.room.handleExit v).1.statu = _ at hrun
    rw [Room.handleExit_fst] at hrun
    cases hrun
  | watch _ hroom =>
    subst hroom
    exact alert_of_watcher h rfl rfl (fun who' hwho => put_ne hwho) hturn hhears hshown hrun hstarted
  | unwatch => exact alert_of_watcher h rfl rfl (fun who' hwho => put_ne hwho) hturn hhears hshown hrun hstarted

/-! ### Runs -/

variable {roomId : Nat} {start' now now' later : Int} {perf : Rat} {selectById : Uid → Option Members}

end Duel
end FiveStones
