import FiveStones.Theorems.Conversion
import FiveStones.Theorems.FairPlay
import FiveStones.Theorems.FullBoard

/-! What becomes of the messages between a room and its pages: the server can handle each of them, and when nobody does
anything more, every page comes to show the room. -/

namespace FiveStones

namespace RoomInfo
variable {room : RoomInfo} {r : Room} {env : Env} {m : Members} {uid : Uid}

/-- No message of a page makes the server throw. -/
theorem Sends.reads (env : Env) (hm : room.Sends m) (hroom : room.roomId = .int r.roomId) (hid : r.roomId < 2 ^ 64)
    (huid : room.uid = .uint uid) : r.Reads env m := by
  obtain ⟨hget, hname, hwinner, optype, hop⟩ := hm.get
  have hlt : (uid.toNat : Int) < 2 ^ 64 := by exact_mod_cast uid.toNat_lt
  have hintId : (r.roomId : Int) < 2 ^ 64 := by exact_mod_cast hid
  have hfits : (m.get "uid").FitsUInt64 := by
    rw [hname, huid]
    exact ⟨Int.natCast_nonneg _, hlt⟩
  refine ⟨?_, ?_, fun _ _ _ => hfits, fun uid' admits => ?_, fun asks => ?_⟩
  · rw [hget, hroom]
    exact ⟨Int.natCast_nonneg _, hintId⟩
  · rw [hop]
    trivial
  · obtain ⟨c, rfl⟩ := hm.chess_of_asks admits.asks
    have hrow : (c.row : Int) < 15 := by exact_mod_cast c.row.isLt
    have hcol : (c.col : Int) < 15 := by exact_mod_cast c.col.isLt
    refine ⟨⟨by omega, by omega⟩, ⟨by omega, by omega⟩, fun _ => ?_⟩
    rw [hwinner]
    trivial
  · have hchat := asks.optype
    cases hm with
    | chat text => trivial
    | chess | timeout => exact absurd (Except.ok.inj hchat) (by simp)
    | rematch hoffer => rcases hoffer with rfl | rfl <;> exact absurd (Except.ok.inj hchat) (by simp)

end RoomInfo

namespace Duel
variable {d d' : Duel} {w b uid : Uid} {calls : List Call} {ts us : List DuelTrans} {m info : Members} {rest : List Members}
  {selectById : Uid → Option Members} {now later : Int} {roomId : Nat} {start' : Int} {who : Party}

/-- No message of a page makes the server throw, whatever it finds in the clock, in the database and among the connections. -/
theorem Sound.handled (h : d.Sound w b) (hid : d.room.roomId < 2 ^ 64) (hm : m ∈ (d.clients (.player uid)).outbox) (env : Env) :
    ∃ room calls, d.room.handleRequest env (.obj m) = .ok (room, calls) := by
  obtain ⟨info, hroom, huid, hsends⟩ := h.sends uid m hm
  obtain ⟨⟨room, calls⟩, hreq⟩ := Room.handleRequest_obj_returns.mpr (hsends.reads env hroom hid huid)
  exact ⟨room, calls, hreq⟩

/-- A message of a player who is connected can be handled at any time. -/
theorem Sound.serve_enabled (h : d.Sound w b) (hid : d.room.roomId < 2 ^ 64) (hlive : (d.clients (.player uid)).line = .live)
    (hout : (d.clients (.player uid)).outbox = m :: rest) (hnow : d.clock ≤ now) (hlater : now ≤ later)
    (selectById : Uid → Option Members) :
    ∃ room calls, d.room.handleRequest (d.env selectById now later) (.obj m) = .ok (room, calls) ∧
      machine.step d (.serve uid selectById now later) =
        some (({ d.put (.player uid) { d.clients (.player uid) with outbox := rest } with
          room, clock := later }).announce calls, calls) := by
  obtain ⟨room, calls, hreq⟩ := h.handled hid (hout ▸ List.mem_cons_self) (d.env selectById now later)
  refine ⟨room, calls, hreq, ?_⟩
  simp only [machine, hout, if_pos (And.intro hlive (And.intro hnow hlater)), hreq]

theorem step_read (hinbox : (d.clients who).inbox = info :: rest) (hshown : (d.clients who).shown = true) (hnow : d.clock ≤ now)
    (perf : Rat) : machine.step d (.read who now perf) = some ({ d.put who { d.clients who with
      page := (d.clients who).page.onMessage info perf, inbox := rest } with clock := now }, []) := by
  simp only [machine, hinbox, if_pos (And.intro hshown hnow)]

/-! ### Coming to rest -/

/-- What a broadcast leaves alone. -/
theorem announce_field {α : Type} (f : Client → α) (h : ∀ c infos, f (Client.receive c infos) = f c) (who : Party) :
    f ((d.announce calls).clients who) = f (d.clients who) := by
  simp only [Duel.announce]
  split
  · exact h _ _
  · rfl

/-- The server handles a message, or a page reads one. -/
def Delivers : DuelEvent → Prop
  | .read .. | .serve .. => True
  | _ => False

/-- From `d` to `d'` messages are delivered, and nobody does anything. -/
structure Settles (d d' : Duel) (us : List DuelTrans) : Prop where
  run : machine.Run d us d'
  delivers : ∀ x ∈ us, Delivers x.event
  line : ∀ who, (d'.clients who).line = (d.clients who).line
  shown : ∀ who, (d'.clients who).shown = (d.clients who).shown
  roomId : d'.room.roomId = d.room.roomId

namespace Settles
variable {d'' : Duel} {vs : List DuelTrans}

theorem refl (d : Duel) : d.Settles d [] := ⟨.nil, (by simp), fun _ => rfl, fun _ => rfl, rfl⟩

theorem trans (h : d.Settles d' us) (h' : d'.Settles d'' vs) : d.Settles d'' (us ++ vs) where
  run := h.run.append h'.run
  delivers x hx := (List.mem_append.mp hx).elim (h.delivers x) (h'.delivers x)
  line who := (h'.line who).trans (h.line who)
  shown who := (h'.shown who).trans (h.shown who)
  roomId := h'.roomId.trans h.roomId

theorem one {e : DuelEvent} (hs : machine.step d e = some (d', calls)) (he : Delivers e)
    (hline : ∀ who, (d'.clients who).line = (d.clients who).line) (hshown : ∀ who, (d'.clients who).shown = (d.clients who).shown) :
    d.Settles d' [⟨d, e, d', calls⟩] :=
  ⟨.cons hs .nil, fun _ hx => List.mem_singleton.mp hx ▸ he, hline, hshown, step_roomId hs⟩

theorem sound (h : d.Settles d' us) (hp : Players w b) (hsound : d.Sound w b) : d'.Sound w b :=
  h.run.invariant hsound fun hi hs => hi.step hp hs

end Settles

variable {c : Cell} {x y : Rat} {v : Uid}

theorem step_act (act : Act) (hshown : (d.clients who).shown = true) : machine.step d (.act who act) =
    some (d.put who ((d.clients who).send (act.message (d.clients who).page)), []) := by
  simp only [machine, if_pos hshown]

theorem env_eq (hline : ∀ v, (d'.clients (.player v)).line = (d.clients (.player v)).line) :
    d'.env selectById now later = d.env selectById now later := by
  simp only [env, hline]

/-- Who is there hears what is announced. -/
theorem inbox_announce {v : Uid} (calls : List Call) (hlive : (d.clients (.player v)).line = .live) (hseat : d.room.Seats v) :
    ((d.announce calls).clients (.player v)).inbox = (d.clients (.player v)).inbox ++ broadcasts calls := by
  have hhears : d.hears (.player v) = true := by simp [hears, hlive, hseat]
  simp only [announce, if_pos hhears, Client.receive]

/-- A client that has the same page and the same connection, and perhaps more to read. -/
structure Idles (c c' : Client) : Prop where
  line : c'.line = c.line
  shown : c'.shown = c.shown
  page : c'.page = c.page
  outbox : c'.outbox = c.outbox

/-- A client from which the one message is taken that it has sent is as it was before. -/
theorem idles_taken (hothers : ∀ who', who' ≠ who → d'.clients who' = d.clients who')
    (hself : d'.clients who = { d.clients who with outbox := [m] }) (hout : (d.clients who).outbox = []) (who' : Party) :
    Idles (d.clients who') ((d'.put who { d'.clients who with outbox := [] }).clients who') := by
  by_cases hwho : who' = who
  · subst hwho
    rw [put_self, hself]
    exact ⟨rfl, rfl, rfl, hout.symm⟩
  · rw [put_ne hwho, hothers who' hwho]
    exact ⟨rfl, rfl, rfl, rfl⟩

/-- A player who is there, and has nothing on the way to the server, does something on the page, and the server handles it. -/
theorem act_served (act : Act) (hp : Players w b) (h : d.Sound w b) (hid : d.room.roomId < 2 ^ 64)
    (hlive : (d.clients (.player uid)).line = .live) (hshown : (d.clients (.player uid)).shown = true)
    (hout : (d.clients (.player uid)).outbox = []) (hmessage : act.message (d.clients (.player uid)).page = some m)
    (hnow : d.clock ≤ now) (hlater : now ≤ later) (selectById : Uid → Option Members) :
    ∃ us d' calls, machine.Run d us d' ∧
      us.map Machine.Trans.event = [.act (.player uid) act, .serve uid selectById now later] ∧
      d.room.handleRequest (d.env selectById now later) (.obj m) = .ok (d'.room, calls) ∧ d'.clock = later ∧
      (∀ v, Idles (d.clients (.player v)) (d'.clients (.player v))) ∧
      ∀ v, (d.clients (.player v)).line = .live → d'.room.Seats v →
        (d'.clients (.player v)).inbox = (d.clients (.player v)).inbox ++ broadcasts calls := by
  have hact := step_act act hshown
  rw [hmessage] at hact
  have hself : (d.put (.player uid) ((d.clients (.player uid)).send (some m))).clients (.player uid) =
      { d.clients (.player uid) with outbox := [m] } := by
    rw [put_self]
    simp [Client.send, hlive, hout]
  have hline : ∀ v, ((d.put (.player uid) ((d.clients (.player uid)).send (some m))).clients (.player v)).line =
      (d.clients (.player v)).line := fun v => put_field Client.line (by rfl) (.player v)
  obtain ⟨room, calls, hreq, hserve⟩ := (h.step hp hact).serve_enabled hid ((hline uid).trans hlive)
    (by rw [hself]) hnow hlater selectById
  rw [env_eq hline] at hreq
  refine ⟨_, _, calls, .cons hact (.cons hserve .nil), rfl, hreq, rfl, fun v => ?_, fun v hv hseat => ?_⟩
  · have hput := idles_taken (d := d) (fun who hwho => put_ne hwho) hself hout (.player v)
    exact
      { line := (announce_field Client.line (fun _ _ => rfl) _).trans hput.line
        shown := (announce_field Client.shown (fun _ _ => rfl) _).trans hput.shown
        page := (announce_field Client.page (fun _ _ => rfl) _).trans hput.page
        outbox := (announce_field Client.outbox (fun _ _ => rfl) _).trans hput.outbox }
  · change Room.Seats room v at hseat
    refine (inbox_announce (d := { (Duel.put _ _ _) with room, clock := later }) calls ?_ hseat).trans (congrArg (· ++ _) ?_)
    · exact (put_field Client.line (by rfl) _).trans ((hline v).trans hv)
    · exact (put_field Client.inbox (by rfl) _).trans (put_field Client.inbox (by rfl) (.player v))

/-- An offer is this room's, and the player's own. -/
theorem asks_sendRematch {r : Room} {room : RoomInfo} (optype : String) (hroom : room.roomId = .int r.roomId)
    (huid : room.uid = .uint uid) (hid : r.roomId < 2 ^ 64) : r.Asks (room.sendRematch optype) optype ∧
      ((room.sendRematch optype).get "uid").asUInt64 = .ok uid := by
  have hint : (r.roomId : Int) < 2 ^ 64 := by exact_mod_cast hid
  refine ⟨⟨⟨.ofNat r.roomId, ?_, UInt64.toNat_ofNat_of_lt' hid⟩, rfl⟩, ?_⟩
  · change room.roomId.asUInt64 = _
    rw [hroom, Json.asUInt64, if_pos ⟨Int.natCast_nonneg _, hint⟩]
    rfl
  · change room.uid.asUInt64 = _
    rw [huid, Json.asUInt64_uint]

theorem invite_handled {r : Room} {env : Env} (asks : r.Asks m "rematch_invite") (hnames : (m.get "uid").asUInt64 = .ok uid)
    (hover : r.statu = .gameOver) (hseat : r.Seats uid) (hinit : r.rematchInitiatorUid = 0)
    (honline : r.bothPlayersOnline env = true) :
    ∃ info, r.handleRequest env (.obj m) = .ok ({ r with rematchInitiatorUid := uid }, [.broadcast info]) := by
  have hno : ¬(uid ≠ r.whiteId ∧ uid ≠ r.blackId) := fun h => hseat.elim h.1 h.2
  rw [Room.handleRequest_eq env asks]
  simp only [String.reduceEq, ↓reduceIte, Room.rematchInvite, hnames, hover, hinit, honline, hno, bind, Except.bind, pure,
    Except.pure, ne_eq, not_true_eq_false, Bool.not_true, Bool.false_eq_true]
  exact ⟨_, rfl⟩

/-- What a player's page says when it has read everything, and the game is over. -/
theorem message_offer (h : d.Sound w b) (hseat : d.room.Seats uid) (hlive : (d.clients (.player uid)).line = .live)
    (hshown : (d.clients (.player uid)).shown = true) (hin : (d.clients (.player uid)).inbox = [])
    (hover : d.room.statu = .gameOver) : ∃ room : RoomInfo, room.roomId = .int d.room.roomId ∧ room.uid = .uint uid ∧
      Act.message (d.clients (.player uid)).page .invite = some (room.sendRematch "rematch_invite") ∧
      Act.message (d.clients (.player uid)).page .accept = some (room.sendRematch "rematch_accept") := by
  have hshows := h.shows (.player uid) (by simp [hears, hlive, hseat]) hshown
  rw [hin, Page.catchUp_nil] at hshows
  obtain ⟨room, hroom, hnames⟩ := hshows.info
  have hside : (d.clients (.player uid)).page.isSpectator = false := by
    rw [← Bool.not_eq_true, hshows.side]
    rintro ⟨_, hwho⟩
    cases hwho
  have hpage := hshows.isOver.mpr hover
  refine ⟨room, hnames.roomId, hnames.uid uid rfl, ?_, ?_⟩ <;>
    simp only [Act.message, Page.sendRematchInvite, Page.sendRematchAccept, Page.sendRematch, hside, hroom, hpage,
      Bool.false_eq_true, ↓reduceIte]

/-- A page has read the one message that is on its way to it, or not yet. -/
theorem reads_offered {info : Members} (hp : Players w b) (h : d.Sound w b) (hseat : d.room.Seats uid)
    (hlive : (d.clients (.player uid)).line = .live) (hshown : (d.clients (.player uid)).shown = true)
    (hin : (d.clients (.player uid)).inbox = [info]) (hover : d.room.statu = .gameOver) (hnow : d.clock ≤ now) (perf : Rat) :
    ∃ (us : List DuelTrans) (d' : Duel) (room : RoomInfo), machine.Run d us d' ∧
      us.map Machine.Trans.event = [.read (.player uid) now perf] ∧ d'.room = d.room ∧ d'.clock = now ∧
      (∀ v, (d'.clients (.player v)).line = (d.clients (.player v)).line) ∧ (d'.clients (.player uid)).shown = true ∧ (d'.clients (.player uid)).outbox = (d.clients (.player uid)).outbox ∧
      room.roomId = .int d.room.roomId ∧ room.uid = .uint uid ∧
      Act.message (d'.clients (.player uid)).page .accept = some (room.sendRematch "rematch_accept") := by
  have hs := step_read hin hshown hnow perf
  have hself : (({ d.put (.player uid) { d.clients (.player uid) with
      page := (d.clients (.player uid)).page.onMessage info perf, inbox := [] } with clock := now } : Duel).clients (.player uid)) =
      { d.clients (.player uid) with page := (d.clients (.player uid)).page.onMessage info perf, inbox := [] } := put_self
  obtain ⟨room, hroom, huid, -, haccept⟩ := message_offer (h.step hp hs) hseat (by rw [hself]; exact hlive)
    (by rw [hself]; exact hshown) (by rw [hself]) hover
  exact ⟨_, _, room, .cons hs .nil, rfl, rfl, rfl, fun v => put_field Client.line (by rfl) (.player v), by rw [hself]; exact hshown,
    by rw [hself], hroom, huid, haccept⟩

/-- The invitation of a player who is there is made, and every player who is there hears of it. -/
theorem invite_served (hp : Players w b) (h : d.Sound w b) (hid : d.room.roomId < 2 ^ 64) (htogether : d.Together)
    (hover : d.room.statu = .gameOver) (hinit : d.room.rematchInitiatorUid = 0) (hseat : d.room.Seats uid)
    (hshown : (d.clients (.player uid)).shown = true) (hin : (d.clients (.player uid)).inbox = [])
    (hout : (d.clients (.player uid)).outbox = []) (hnow : d.clock ≤ now) (selectById : Uid → Option Members) :
    ∃ us d' info, machine.Run d us d' ∧
      us.map Machine.Trans.event = [.act (.player uid) .invite, .serve uid selectById now now] ∧
      d'.room = { d.room with rematchInitiatorUid := uid } ∧ d'.clock = now ∧
      (∀ v, Idles (d.clients (.player v)) (d'.clients (.player v))) ∧
      ∀ v, d.room.Seats v → (d'.clients (.player v)).inbox = (d.clients (.player v)).inbox ++ [info] := by
  obtain ⟨room, hroom, hself, hinvite, -⟩ := message_offer h hseat (htogether uid hseat) hshown hin hover
  obtain ⟨us, d', calls, hus, hevents, hreq, hclock, hidles, hinbox⟩ :=
    act_served _ hp h hid (htogether uid hseat) hshown hout hinvite hnow le_rfl selectById
  obtain ⟨asks, hnames⟩ := asks_sendRematch "rematch_invite" hroom hself hid
  obtain ⟨info, hreq'⟩ := invite_handled asks hnames hover hseat hinit (together_iff.mpr htogether)
  obtain ⟨hroom', rfl⟩ := Prod.mk.inj (Except.ok.inj (hreq.symm.trans hreq'))
  refine ⟨us, d', info, hus, hevents, hroom', hclock, hidles, fun v hv => hinbox v (htogether v hv) ?_⟩
  rw [hroom']
  exact hv

/-- The acceptance of the other player starts the game. -/
theorem accept_served {room : RoomInfo} (hp : Players w b) (h : d.Sound w b) (hid : d.room.roomId < 2 ^ 64)
    (htogether : d.Together) (hover : d.room.statu = .gameOver) (hinit : d.room.rematchInitiatorUid ≠ 0)
    (hseat : d.room.Seats uid) (hother : uid ≠ d.room.rematchInitiatorUid) (hshown : (d.clients (.player uid)).shown = true)
    (hout : (d.clients (.player uid)).outbox = []) (hroom : room.roomId = .int d.room.roomId) (hself : room.uid = .uint uid)
    (haccept : Act.message (d.clients (.player uid)).page .accept = some (room.sendRematch "rematch_accept")) (hnow : d.clock ≤ now)
    (selectById : Uid → Option Members) :
    ∃ us d', machine.Run d us d' ∧
      us.map Machine.Trans.event = [.act (.player uid) .accept, .serve uid selectById now now] ∧
      d'.room = (d.room.startRematch (d.env selectById now now)).1 := by
  obtain ⟨us, d', calls, hus, hevents, hreq, -, -, -⟩ :=
    act_served .accept hp h hid (htogether uid hseat) hshown hout haccept hnow le_rfl selectById
  obtain ⟨asks, hnames⟩ := asks_sendRematch "rematch_accept" hroom hself hid
  obtain ⟨calls', hagreed⟩ := Room.rematchAccept_agreed hover hinit (together_iff.mpr htogether) hnames hseat hother
  have hreq' : d.room.handleRequest (d.env selectById now now) (.obj (room.sendRematch "rematch_accept")) = _ :=
    (Room.handleRequest_eq _ asks).trans ((if_neg (by decide)).trans ((if_neg (by decide)).trans ((if_neg (by decide)).trans
      ((if_pos rfl).trans hagreed))))
  exact ⟨us, d', hus, hevents, (Prod.mk.inj (Except.ok.inj (hreq.symm.trans hreq'))).1⟩

/-- When a game is over, and both players are there and want another, they get it: one invites, the other accepts, and the
    seats are swapped. It makes no difference whether the page has read the invitation by then. -/
theorem rematch_played (hasRead : Bool) (now now' : Int) (perf : Rat) (selectById' : Uid → Option Members) (hp : Players w b)
    (hid : roomId < 2 ^ 64) (h : machine.Run (start roomId w b start' selectById) ts d)
    (htogether : d.Together) (hover : d.room.statu = .gameOver) (hinit : d.room.rematchInitiatorUid = 0)
    (huid : d.room.Seats uid) (hv : d.room.Seats v) (hne : v ≠ uid)
    (hready : ∀ u, d.room.Seats u → (d.clients (.player u)).shown = true ∧ (d.clients (.player u)).inbox = [] ∧
      (d.clients (.player u)).outbox = [])
    (hnow : d.clock ≤ now) (hnow' : now ≤ now') :
    ∃ us d', machine.Run d us d' ∧
      us.map Machine.Trans.event = [.act (.player uid) .invite, .serve uid selectById' now now] ++
        (if hasRead then [.read (.player v) now perf] else []) ++ [.act (.player v) .accept, .serve v selectById' now' now'] ∧
      d'.room.statu = .gameStart ∧ d'.room.board = Board.empty ∧ d'.room.whiteId = d.room.blackId ∧
      d'.room.blackId = d.room.whiteId ∧ d'.room.turnUid = d'.room.blackId ∧
      ∀ who, d'.hears who = true → (d'.clients who).shown = true →
        ((d'.clients who).page.catchUp (d'.clients who).inbox).Mirrors who d'.room := by
  have hsound := run_sound hp h
  have hidRoom : d.room.roomId < 2 ^ 64 := by rw [run_roomId h]; exact hid
  obtain ⟨hshown, hin, hout⟩ := hready uid huid
  obtain ⟨hshown', hin', hout'⟩ := hready v hv
  -- The invitation is handled,
  obtain ⟨us, d₁, info, hus, hevents, hroom₁, hclock, hidles, hinbox⟩ :=
    invite_served hp hsound hidRoom htogether hover hinit huid hshown hin hout hnow selectById'
  have hseat₁ : d₁.room.Seats v := by rw [hroom₁]; exact hv
  have hover₁ : d₁.room.statu = .gameOver := by rw [hroom₁]; exact hover
  obtain ⟨hline, hshows, hpage, houtbox⟩ := hidles v
  -- the page reads it, or does not,
  obtain ⟨vs, d₂, room, hvs, hevents₂, hroom₂, hclock₂, hline₂, hshows₂, hout₂, hroom, hself, haccept⟩ :
      ∃ (vs : List DuelTrans) (d₂ : Duel) (room : RoomInfo), machine.Run d₁ vs d₂ ∧
        vs.map Machine.Trans.event = (if hasRead then [.read (.player v) now perf] else []) ∧ d₂.room = d₁.room ∧
        d₂.clock = now ∧ (∀ u, (d₂.clients (.player u)).line = (d₁.clients (.player u)).line) ∧
        (d₂.clients (.player v)).shown = true ∧ (d₂.clients (.player v)).outbox = (d₁.clients (.player v)).outbox ∧
        room.roomId = .int d₁.room.roomId ∧ room.uid = .uint v ∧
        Act.message (d₂.clients (.player v)).page .accept = some (room.sendRematch "rematch_accept") := by
    cases hasRead with
    | true =>
      have hin₁ : (d₁.clients (.player v)).inbox = [info] := by
        rw [hinbox v hv, hin']
        rfl
      exact reads_offered hp (run_sound hp (h.append hus)) hseat₁ (hline.trans (htogether v hv)) (hshows.trans hshown') hin₁ hover₁
        hclock.le perf
    | false =>
      obtain ⟨room, hroom, hself, -, haccept⟩ := message_offer hsound hv (htogether v hv) hshown' hin' hover
      exact ⟨[], d₁, room, .nil, rfl, rfl, hclock, fun _ => rfl, hshows.trans hshown', rfl, by rw [hroom₁]; exact hroom, hself,
        by rw [hpage]; exact haccept⟩
  -- and then the acceptance is handled.
  have hrun₂ := (h.append hus).append hvs
  have hidRoom₂ : d₂.room.roomId < 2 ^ 64 := by rw [run_roomId hrun₂]; exact hid
  have htogether₂ : d₂.Together := fun u hu => by
    rw [hroom₂, hroom₁] at hu
    exact (hline₂ u).trans ((hidles u).line.trans (htogether u hu))
  have hasked : d₂.room.rematchInitiatorUid = uid := by rw [hroom₂, hroom₁]
  have hfit := hp.fit hsound.seated
  obtain ⟨xs, d₃, hxs, hevents₃, hroom₃⟩ := accept_served hp (run_sound hp hrun₂) hidRoom₂ htogether₂ (by rw [hroom₂]; exact hover₁)
    (hasked ▸ hfit.ne_zero huid) (by rw [hroom₂]; exact hseat₁) (hasked ▸ hne) hshows₂ (hout₂.trans (houtbox.trans hout'))
    (by rw [hroom₂]; exact hroom) hself haccept (hclock₂.le.trans hnow') selectById'
  refine ⟨us ++ vs ++ xs, d₃, (hus.append hvs).append hxs, by rw [List.map_append, List.map_append, hevents, hevents₂, hevents₃], ?_⟩
  have hshows₃ := (run_sound hp (hrun₂.append hxs)).shows
  rw [hroom₃, hroom₂, hroom₁] at hshows₃ ⊢
  exact ⟨rfl, rfl, rfl, rfl, rfl, hshows₃⟩

/-- White has run out of time, and both want another game. Black's page has read that white offers one. -/
theorem rematch_played_late : ∃ (ts us : List DuelTrans) (d d' : Duel), machine.Run (start 1 10 20 0 newcomer) ts d ∧
    d.room.statu = .gameOver ∧ machine.Run d us d' ∧ us.length = 5 ∧ d'.room.statu = .gameStart ∧ d'.room.whiteId = 20 := by
  obtain ⟨ts, d, h, hover, hinit, hwhite, hblack, hclock, htogether, hw, hb⟩ :=
    Machine.Run.exists_of_exec machine (start 1 10 20 0 newcomer)
      [.read (.player 10) 0 0, .read (.player 20) 0 0, .act (.player 20) (.click 225 225), .serve 20 newcomer 0 0,
        .read (.player 10) 0 0, .read (.player 20) 0 0, .tick (.player 10) 30000000000 30000,
        .serve 10 newcomer 30000000000 30000000000, .read (.player 10) 30000000000 0, .read (.player 20) 30000000000 0]
      (fun _ d => d.room.statu = .gameOver ∧ d.room.rematchInitiatorUid = 0 ∧ d.room.whiteId = 10 ∧ d.room.blackId = 20 ∧
        d.clock = 30000000000 ∧ d.room.bothPlayersOnline (d.env newcomer 0 0) = true ∧
        ((d.clients (.player 10)).shown = true ∧ (d.clients (.player 10)).inbox.length = 0 ∧
          (d.clients (.player 10)).outbox.length = 0) ∧
        (d.clients (.player 20)).shown = true ∧ (d.clients (.player 20)).inbox.length = 0 ∧
          (d.clients (.player 20)).outbox.length = 0) (by decide +kernel)
  obtain ⟨us, d', hus, hevents, hrun, -, hwhite', -⟩ := rematch_played true 30000000000 31000000000 0 newcomer
    ⟨by decide, by decide, by decide, by decide, by decide⟩ (by decide) h (together_iff.mp htogether)
    hover hinit (Or.inl hwhite.symm) (Or.inr hblack.symm) (by decide) (fun u hu => by
      simp only [List.length_eq_zero_iff] at hw hb
      rcases hu with rfl | rfl
      · rw [hwhite]
        exact hw
      · rw [hblack]
        exact hb) hclock.le (by decide)
  refine ⟨ts, us, d, d', h, hover, hus, ?_, hrun, hwhite'.trans hblack⟩
  rw [← List.length_map (f := Machine.Trans.event), hevents]
  rfl

end Duel
end FiveStones
