import FiveStones.Theorems.Announcement
import FiveStones.Theorems.Screens

/-! Every page that is still connected shows the server's game, as soon as it has read what is on its way to it. -/

namespace FiveStones

namespace RoomInfo
variable {room : RoomInfo} {r : Room} {msg : Members} {uid : Uid}

/-- Of all that a page sends, only a click is a move. -/
theorem Sends.chess_of_asks (h : room.Sends msg) (asks : r.Asks msg "put_chess") :
    ∃ c : Cell, msg = room.sendChess c.row c.col := by
  have hop := asks.optype
  cases h with
  | chess c => exact ⟨c, rfl⟩
  | chat | timeout =>
    have heq := Except.ok.inj hop
    simp at heq
  | rematch hoffer =>
    have heq := Except.ok.inj hop
    rcases hoffer with rfl | rfl <;> simp at heq

end RoomInfo

namespace Room
variable {env : Env} {r r' : Room} {m resp : Members} {uid uid' winner : Uid} {c : Cell} {color : Chess} {room : RoomInfo}

/-- A page's move is the cell and the player that the room takes it for. -/
theorem Places.of_sends (places : Places env r m uid' c color) (hm : room.Sends m) (huid : room.uid = .uint uid) :
    uid' = uid ∧ m.get "row" = .int c.row ∧ m.get "col" = .int c.col ∧ m.get "uid" = .uint uid ∧
      m.get "optype" = .str "put_chess" := by
  obtain ⟨c', rfl⟩ := hm.chess_of_asks places.asks
  have hr := places.row
  have hc := places.col
  have hrlt : c'.row.val < 15 := c'.row.isLt
  have hclt : c'.col.val < 15 := c'.col.isLt
  have hrow : (Json.int c'.row).asInt = .ok c'.row := Json.asInt_of_integer? rfl (by omega) (by omega)
  have hcol : (Json.int c'.col).asInt = .ok c'.col := Json.asInt_of_integer? rfl (by omega) (by omega)
  have hnames := places.names
  change room.uid.asUInt64 = _ at hnames
  rw [huid, Json.asUInt64_uint] at hnames
  change (Json.int c'.row).asInt = _ at hr
  change (Json.int c'.col).asInt = _ at hc
  refine ⟨(Except.ok.inj hnames).symm, ?_, ?_, huid, rfl⟩
  · change Json.int c'.row = _
    rw [Except.ok.inj (hrow.symm.trans hr)]
  · change Json.int c'.col = _
    rw [Except.ok.inj (hcol.symm.trans hc)]

end Room

namespace Page
variable {p : Page} {who : Party} {r r' : Room} {m resp : Members} {now : Rat} {env : Env} {uid : Uid} {room : RoomInfo}

/-- What keeps a room and its pages apart from others: two seats, with ids that a script can tell apart. -/
structure Fit (r : Room) : Prop where
  ne : r.whiteId ≠ r.blackId
  white : r.whiteId ≠ 0
  black : r.blackId ≠ 0
  exact : ∀ u, r.Seats u → Exact u

theorem Fit.ne_zero (h : Fit r) (hseat : r.Seats uid) : uid ≠ 0 := by
  rcases hseat with rfl | rfl
  · exact h.white
  · exact h.black

/-- A page that shows the room shows it again after it has read what the room tells. -/
theorem Mirrors.told (h : p.Mirrors who r) (hfit : Fit r) (hwho : ∀ v, who = .player v → r.Seats v) (hm : room.Sends m)
    (huid : room.uid = .uint uid) (hseat : r.Seats uid) (htells : r.Tells env m r' resp) :
    (p.onMessage resp now).Mirrors who r' := by
  cases htells with
  | refused hres =>
    rw [onMessage_refused hres]
    exact h
  | chatted hres hop =>
    have hsame : p.onMessage resp now = p := by
      rw [onMessage_eq hres hop]
      cases p.isSpectator <;> rfl
    rw [hsame]
    exact h
  | timedOut _ _ _ _ hres hop =>
    rw [onMessage_eq hres hop]
    exact h.finish ⟨rfl, rfl, rfl⟩ rfl
  | moved places hwin hannounced =>
    obtain ⟨rfl, hrow, hcol, hname, hop⟩ := places.of_sends hm huid
    have same := hannounced.same
    rw [onMessage_eq hannounced.result ((same "optype" (by decide)).trans hop)]
    exact h.moved hfit.ne hfit.exact hseat hwho places ((same "row" (by decide)).trans hrow)
      ((same "col" (by decide)).trans hcol) ((same "uid" (by decide)).trans hname)
      (hannounced.timing.trans (by rw [Room.passTurn_timingStarted])) hannounced.winner
  | walkover admits habsent hzero hannounced =>
    obtain ⟨c, rfl⟩ := hm.chess_of_asks admits.asks
    obtain ⟨room', hroom', -⟩ := h.info
    have same := hannounced.same
    rw [onMessage_eq hannounced.result (same "optype" (by decide))]
    exact h.ended ⟨rfl, rfl, rfl⟩ rfl
      ⟨_, putStone_cell hroom' (same "row" (by decide)) (same "col" (by decide)), rfl, rfl⟩ hannounced.winner hzero
  | won places hwin hzero hannounced =>
    obtain ⟨rfl, hrow, hcol, hname, hop⟩ := places.of_sends hm huid
    obtain ⟨room', hroom', -⟩ := h.info
    have same := hannounced.same
    rw [onMessage_eq hannounced.result ((same "optype" (by decide)).trans hop)]
    exact h.ended ⟨rfl, rfl, rfl⟩ rfl
      ⟨_, putStone_cell hroom' ((same "row" (by decide)).trans hrow) ((same "col" (by decide)).trans hcol), rfl, rfl⟩
      hannounced.winner hzero
  | invited _ _ hover _ _ hres hop hwhite hblack =>
    rw [onMessage_eq hres hop]
    cases hs : p.isSpectator with
    | true => exact h.of_over ⟨rfl, rfl, rfl⟩ hover rfl rfl (h.isOver.mpr hover)
    | false => exact h.invited hover ⟨rfl, rfl, rfl⟩ hover hwhite hblack
  | accepted =>
    obtain ⟨hres, hop, -⟩ := Room.startRematch_get r env
    rw [onMessage_eq hres hop]
    exact h.restarted hfit.ne hfit.white hfit.black hfit.exact hwho

/-- A departure is told with one message, which shows every page that the game is over. -/
theorem told_exit (hfit : Fit r) (uid : Uid) : ∃ resp, broadcasts (r.handleExit uid).2 = [resp] ∧
    ∀ {p : Page} {who : Party} {now : Rat}, p.Mirrors who r → (p.onMessage resp now).Mirrors who (r.handleExit uid).1 := by
  rw [Room.handleExit_fst]
  cases hs : r.statu with
  | gameStart =>
    have hopp : r.opponentOf uid ≠ 0 := by
      rcases Room.opponentOf_eq uid with heq | heq <;> rw [heq]
      · exact hfit.white
      · exact hfit.black
    simp only [Room.handleExit, hs]
    refine ⟨_, rfl, fun {p _ _} h => ?_⟩
    rw [onMessage_eq rfl rfl, if_pos rfl]
    exact h.ended ⟨rfl, rfl, rfl⟩ rfl ⟨p, rfl, rfl, rfl⟩ rfl hopp
  | gameOver =>
    simp only [Room.handleExit, hs]
    refine ⟨_, rfl, fun h => ?_⟩
    rw [onMessage_eq rfl rfl]
    exact h.finish ⟨rfl, rfl, rfl⟩ rfl

/-! ### What a player's page knows about itself -/

theorem handlePutChess_frame : (p.handlePutChess resp now).roomInfo = p.roomInfo ∧
    (p.handlePutChess resp now).isSpectator = p.isSpectator := by
  unfold handlePutChess
  cases hp : p.putStone resp with
  | none => exact ⟨rfl, rfl⟩
  | some p₁ =>
    have hput : p₁.roomInfo = p.roomInfo ∧ p₁.isSpectator = p.isSpectator := by
      unfold putStone at hp
      split at hp
      · obtain rfl := Option.some.inj hp
        exact ⟨rfl, rfl⟩
      · split at hp
        · cases hs : p.isSpectator <;> simp only [hs, Bool.false_eq_true, ↓reduceIte] at hp <;>
            obtain rfl := Option.some.inj hp <;> exact ⟨rfl, rfl⟩
        · cases hp
    have hframe := takeClocks_frame p₁ resp now
    have hwinner : ∀ q : Page, (q.takeWinner resp).roomInfo = q.roomInfo ∧ (q.takeWinner resp).isSpectator = q.isSpectator := by
      intro q
      unfold takeWinner
      split
      · exact ⟨rfl, rfl⟩
      · split <;> exact ⟨rfl, rfl⟩
    exact ⟨((hwinner _).1.trans hframe.1).trans hput.1, ((hwinner _).2.trans hframe.2).trans hput.2⟩

/-- The page of a player, by its own account. -/
structure Self (roomId : Nat) (uid : Uid) (p : Page) : Prop where
  side : p.isSpectator = false
  info : ∃ room, p.roomInfo = some room ∧ room.roomId = .int roomId ∧ room.uid = .uint uid

/-- A message that leaves a page its own account. -/
def KeepsSelf (roomId : Nat) (resp : Members) : Prop :=
  ∀ (uid : Uid) (p : Page) (now : Rat), p.Self roomId uid → (p.onMessage resp now).Self roomId uid

theorem Self.of_frame {q : Page} {roomId : Nat} (h : p.Self roomId uid) (hinfo : q.roomInfo = p.roomInfo)
    (hside : q.isSpectator = p.isSpectator) : q.Self roomId uid where
  side := hside.trans h.side
  info := by
    rw [hinfo]
    exact h.info

theorem Self.of_same {q : Page} {roomId : Nat} (h : p.Self roomId uid) (hs : p.Same q) : q.Self roomId uid := by
  rw [hs]
  exact ⟨h.side, h.info⟩

theorem keepsSelf_tells (hm : room.Sends m) (htells : r.Tells env m r' resp) : KeepsSelf r.roomId resp := by
  intro uid p now h
  have hchess : ∀ {winner : Uid} {s : Room}, r.Asks m "put_chess" → Room.Announced m s winner resp →
      (p.onMessage resp now).Self r.roomId uid := by
    intro winner s asks hannounced
    obtain ⟨c, rfl⟩ := hm.chess_of_asks asks
    rw [onMessage_eq hannounced.result (hannounced.same "optype" (by decide)), if_pos rfl]
    exact h.of_frame handlePutChess_frame.1 handlePutChess_frame.2
  cases htells with
  | refused hres =>
    rw [onMessage_refused hres]
    exact h
  | chatted hres hop =>
    rw [onMessage_eq hres hop, h.side]
    exact h
  | timedOut _ _ _ _ hres hop =>
    rw [onMessage_eq hres hop]
    exact h.of_frame rfl rfl
  | moved places _ hannounced => exact hchess places.asks hannounced
  | walkover admits _ _ hannounced => exact hchess admits.asks hannounced
  | won places _ _ hannounced => exact hchess places.asks hannounced
  | invited _ _ _ _ _ hres hop =>
    obtain ⟨room, hroom, hid, huid⟩ := h.info
    rw [onMessage_eq hres hop, h.side]
    refine ⟨h.side, _, rfl, ?_, ?_⟩ <;> simpa [hroom]
  | accepted =>
    obtain ⟨room, hroom, hid, huid⟩ := h.info
    obtain ⟨hres, hop, hroomId, -⟩ := Room.startRematch_get r env
    rw [onMessage_eq hres hop]
    refine ⟨h.side, _, rfl, ?_, ?_⟩
    · simp [hroom, hroomId, hid, Json.orElse]
    · simpa [hroom]

theorem keepsSelf_exit (roomId : Nat) (hresp : broadcasts (r.handleExit uid).2 = [resp]) : KeepsSelf roomId resp := by
  intro uid' p now h
  cases hs : r.statu with
  | gameStart =>
    simp only [Room.handleExit, hs] at hresp
    obtain rfl := (List.singleton_inj.mp hresp).symm
    rw [onMessage_eq rfl rfl, if_pos rfl]
    exact h.of_frame handlePutChess_frame.1 handlePutChess_frame.2
  | gameOver =>
    simp only [Room.handleExit, hs] at hresp
    obtain rfl := (List.singleton_inj.mp hresp).symm
    rw [onMessage_eq rfl rfl]
    exact h.of_frame rfl rfl

/-! ### What a page sends -/

theorem message_sends {roomId : Nat} {act : Act} {msg : Members} (h : p.Self roomId uid) (hmessage : act.message p = some msg) :
    ∃ room : RoomInfo, room.roomId = .int roomId ∧ room.uid = .uint uid ∧ room.Sends msg := by
  obtain ⟨room, hroom, hid, huid⟩ := h.info
  refine ⟨room, hid, huid, ?_⟩
  cases act with
  | click x y =>
    simp only [Act.message, onClick, h.side, Bool.false_eq_true, ↓reduceIte, hroom] at hmessage
    split at hmessage
    · cases hmessage
    split at hmessage
    · cases hmessage
    split at hmessage
    · cases hmessage
    · rename_i c _
      split at hmessage
      · cases hmessage
      · obtain rfl := Option.some.inj hmessage
        exact .chess c
  | invite | accept =>
    simp only [Act.message, sendRematchInvite, sendRematchAccept, sendRematch, h.side, Bool.false_eq_true, ↓reduceIte, hroom] at hmessage
    split at hmessage
    · obtain rfl := Option.some.inj hmessage
      exact .rematch (by simp)
    · cases hmessage
  | chat text =>
    simp only [Act.message, sendChat, h.side, Bool.false_eq_true, ↓reduceIte, hroom] at hmessage
    split at hmessage
    · cases hmessage
    · obtain rfl := Option.some.inj hmessage
      exact .chat text

/-- A report of `tickClock` is the page's own. -/
theorem tickClock_sends {roomId : Nat} {msg : Members} (h : p.Self roomId uid) (htick : (p.tickClock now).2 = some msg) :
    ∃ room : RoomInfo, room.roomId = .int roomId ∧ room.uid = .uint uid ∧ room.Sends msg := by
  obtain ⟨room, hroom, hid, huid⟩ := h.info
  refine ⟨room, hid, huid, ?_⟩
  unfold tickClock at htick
  split at htick
  · cases htick
  simp only [hroom] at htick
  split at htick
  · cases htick
  split at htick
  · cases htick
  unfold reportTimeout at htick
  simp only at htick
  split at htick
  · split at htick
    · obtain rfl := Option.some.inj htick
      exact .timeout _
    · cases htick
  · cases htick

end Page

/-! ### The connections -/

/-- The connection of a player, with what the page has been told about itself. -/
inductive Client.Briefed (roomId : Nat) (uid : Uid) (c : Client) : Prop
  | away : c.line = .absent → c.page.roomInfo = none → c.inbox = [] → Briefed roomId uid c
  /-- `room_ready` has not been read yet. -/
  | greeted {ready : Members} {rest : List Members} :
      c.page.isSpectator = false → c.page.roomInfo = none → c.inbox = ready :: rest →
      (∀ {p : Page} {now : Rat}, p.isSpectator = false → (p.onMessage ready now).Self roomId uid) →
      (∀ info ∈ rest, Page.KeepsSelf roomId info) → Briefed roomId uid c
  | entered : c.page.Self roomId uid → (∀ info ∈ c.inbox, Page.KeepsSelf roomId info) → Briefed roomId uid c

/-- Every page that is connected shows the game when it has caught up, and a player sends in its own name. -/
structure Duel.Sound (w b : Uid) (d : Duel) : Prop where
  seated : Room.Seated w b d.room
  players : ∀ uid, (d.clients (.player uid)).line ≠ .absent → uid = w ∨ uid = b
  briefed : ∀ uid, (d.clients (.player uid)).Briefed d.room.roomId uid
  sends : ∀ uid, ∀ msg ∈ (d.clients (.player uid)).outbox, ∃ room : RoomInfo,
    room.roomId = .int d.room.roomId ∧ room.uid = .uint uid ∧ room.Sends msg
  shows : ∀ who, d.hears who = true → (d.clients who).shown = true →
    ((d.clients who).page.catchUp (d.clients who).inbox).Mirrors who d.room

namespace Client.Briefed
variable {roomId : Nat} {uid : Uid} {c : Client} {info : Members} {rest : List Members} {now : Rat}

theorem read (h : c.Briefed roomId uid) (hinbox : c.inbox = info :: rest) :
    { c with page := c.page.onMessage info now, inbox := rest }.Briefed roomId uid := by
  cases h with
  | away _ _ hnil => cases hinbox.symm.trans hnil
  | greeted hside _ hgreet hready hkeep =>
    obtain ⟨rfl, rfl⟩ := List.cons.inj (hinbox.symm.trans hgreet)
    exact .entered (hready hside) hkeep
  | entered hself hkeep =>
    have hinfo := hkeep info (hinbox ▸ List.mem_cons_self)
    exact .entered (hinfo _ _ _ hself) fun info' h => hkeep info' (hinbox ▸ List.mem_cons_of_mem _ h)

/-- What changes only the clocks, or the lines. -/
theorem of_frame {c' : Client} (h : c.Briefed roomId uid) (hline : c.line = .absent → c'.line = .absent)
    (hinfo : c'.page.roomInfo = c.page.roomInfo) (hside : c'.page.isSpectator = c.page.isSpectator)
    (hinbox : c'.inbox = c.inbox) : c'.Briefed roomId uid := by
  cases h with
  | away habsent hnone hnil => exact .away (hline habsent) (hinfo.trans hnone) (hinbox.trans hnil)
  | greeted hs hnone hgreet hready hkeep =>
    exact .greeted (hside.trans hs) (hinfo.trans hnone) (hinbox.trans hgreet) hready hkeep
  | entered hself hkeep => exact .entered (hself.of_frame hinfo hside) (hinbox ▸ hkeep)

theorem receive (h : c.Briefed roomId uid) (hline : c.line ≠ .absent) (hkeep : Page.KeepsSelf roomId info) :
    (c.receive [info]).Briefed roomId uid := by
  have hsnoc : ∀ {infos : List Members}, (∀ i ∈ infos, Page.KeepsSelf roomId i) →
      ∀ i ∈ infos ++ [info], Page.KeepsSelf roomId i := by
    intro infos hinfos i hi
    rcases List.mem_append.mp hi with hi | hi
    · exact hinfos i hi
    · rw [List.mem_singleton.mp hi]
      exact hkeep
  cases h with
  | away habsent => exact absurd habsent hline
  | greeted hs hnone hgreet hready hrest =>
    exact .greeted hs hnone (by rw [Client.receive, hgreet, List.cons_append]) hready (hsnoc hrest)
  | entered hself hrest => exact .entered hself (hsnoc hrest)

/-- A page that can send has read who it is. -/
theorem self (h : c.Briefed roomId uid) {room : RoomInfo} (hroom : c.page.roomInfo = some room) :
    c.page.Self roomId uid := by
  cases h with
  | away _ hnone | greeted _ hnone => cases hroom.symm.trans hnone
  | entered hself => exact hself

end Client.Briefed

namespace Duel
variable {d d' : Duel} {w b : Uid} {who : Party} {c c' : Client} {r : Room} {calls : List Call} {resp : Members}

theorem put_self : (d.put who c).clients who = c := by simp [put]

theorem put_ne {who' : Party} (h : who' ≠ who) : (d.put who c).clients who' = d.clients who' := by simp [put, h]

/-- What a change of one client leaves alone. -/
theorem put_field {α : Type} (f : Client → α) (h : f c = f (d.clients who)) (who' : Party) :
    f ((d.put who c).clients who') = f (d.clients who') := by
  by_cases hwho : who' = who
  · rw [hwho, put_self, h]
  · rw [put_ne hwho]

theorem hears_live (h : d.hears who = true) : (d.clients who).line = .live := by
  simp only [hears, Bool.and_eq_true, decide_eq_true_eq] at h
  exact h.1

theorem hears_of (h : d'.hears who = true) (hroom : d'.room = d.room)
    (hline : (d'.clients who).line = (d.clients who).line) : d.hears who = true := by
  simpa only [hears, hroom, hline] using h

/-- What a client does by itself, without the server. -/
structure Local (d : Duel) (w b : Uid) (who : Party) (c' : Client) : Prop where
  live : c'.line = .live → (d.clients who).line = .live
  absent : (d.clients who).line = .absent → c'.line = .absent
  briefed : ∀ uid, who = .player uid → c'.Briefed d.room.roomId uid
  sends : ∀ uid, who = .player uid → ∀ msg ∈ c'.outbox, ∃ room : RoomInfo,
    room.roomId = .int d.room.roomId ∧ room.uid = .uint uid ∧ room.Sends msg
  shows : c'.shown = true → (d.clients who).shown = true ∧ (((d.clients who).page.catchUp (d.clients who).inbox).Mirrors who d.room →
    (c'.page.catchUp c'.inbox).Mirrors who d.room)

theorem Sound.put (h : d.Sound w b) (hl : d.Local w b who c') : (d.put who c').Sound w b where
  seated := h.seated
  players uid hline := by
    by_cases hwho : Party.player uid = who
    · subst hwho
      rw [put_self] at hline
      exact h.players uid fun habsent => hline (hl.absent habsent)
    · rw [put_ne hwho] at hline
      exact h.players uid hline
  briefed uid := by
    by_cases hwho : Party.player uid = who
    · subst hwho
      rw [put_self]
      exact hl.briefed uid rfl
    · rw [put_ne hwho]
      exact h.briefed uid
  sends uid := by
    by_cases hwho : Party.player uid = who
    · subst hwho
      rw [put_self]
      exact hl.sends uid rfl
    · rw [put_ne hwho]
      exact h.sends uid
  shows who' hhears hshown := by
    by_cases hwho : who' = who
    · subst hwho
      rw [put_self] at hshown ⊢
      obtain ⟨hshown', hpage⟩ := hl.shows hshown
      have hline : ((d.put who' c').clients who').line = (d.clients who').line := by
        have hlive := hears_live hhears
        rw [hlive, hl.live (by rwa [put_self] at hlive)]
      exact hpage (h.shows who' (hears_of hhears rfl hline) hshown')
    · rw [put_ne hwho] at hshown ⊢
      exact h.shows who' (hears_of hhears rfl (by rw [put_ne hwho])) hshown

/-- Nothing of it is about the clock. -/
theorem Sound.at (h : d.Sound w b) (t : Int) : { d with clock := t }.Sound w b :=
  ⟨h.seated, h.players, h.briefed, h.sends, h.shows⟩

/-- The room after a step of the server has the same people around it. -/
structure Around (r r' : Room) : Prop where
  roomId : r'.roomId = r.roomId
  seats : ∀ uid, r'.Seats uid ↔ r.Seats uid
  spectators : r'.spectatorConns = r.spectatorConns

theorem hears_room {t : Int} (hr : Around d.room r) : { d with room := r, clock := t }.hears who = d.hears who := by
  unfold hears
  cases who with
  | player uid => simp only [hr.seats]
  | watcher uid => simp only [hr.spectators]

theorem announce_client {t : Int} (hr : Around d.room r) (hcalls : broadcasts calls = [resp]) (who : Party) :
    ({ d with room := r, clock := t }.announce calls).clients who =
      if d.hears who then (d.clients who).receive [resp] else d.clients who := by
  simp only [Duel.announce, hears_room hr, hcalls]

theorem announce_line {t : Int} (hr : Around d.room r) (hcalls : broadcasts calls = [resp]) (who : Party) :
    (({ d with room := r, clock := t }.announce calls).clients who).line = (d.clients who).line := by
  rw [announce_client hr hcalls]
  split <;> rfl

theorem hears_of_announce {t : Int} (hr : Around d.room r) (hcalls : broadcasts calls = [resp])
    (hhears : ({ d with room := r, clock := t }.announce calls).hears who = true) : d.hears who = true := by
  rw [← hears_room (t := t) hr]
  exact hears_of hhears rfl (announce_line hr hcalls who)

theorem Sound.announce {t : Int} (h : d.Sound w b) (hr : Around d.room r) (hseated : Room.Seated w b r)
    (hcalls : broadcasts calls = [resp]) (hkeep : Page.KeepsSelf d.room.roomId resp)
    (htold : ∀ who' (p : Page), p.Mirrors who' d.room → (∀ v, who' = .player v → d.room.Seats v) →
      (p.onMessage resp 0).Mirrors who' r) : ({ d with room := r, clock := t }.announce calls).Sound w b := by
  have hclient := announce_client (d := d) (t := t) hr hcalls
  refine ⟨hseated, fun uid => ?_, fun uid => ?_, fun uid => ?_, fun who' hhears hshown => ?_⟩
  · rw [announce_line hr hcalls]
    exact h.players uid
  · rw [hclient]
    change Client.Briefed r.roomId uid _
    rw [hr.roomId]
    split
    · rename_i hhears
      refine (h.briefed uid).receive ?_ hkeep
      rw [hears_live hhears]
      simp
    · exact h.briefed uid
  · rw [hclient]
    change ∀ msg ∈ _, ∃ room : RoomInfo, room.roomId = .int r.roomId ∧ _
    rw [hr.roomId]
    split <;> exact h.sends uid
  · have hhears' := hears_of_announce hr hcalls hhears
    rw [hclient, if_pos hhears'] at hshown ⊢
    simp only [Client.receive, Page.catchUp_append]
    refine htold who' _ (h.shows who' hhears' hshown) ?_
    rintro v rfl
    simp only [hears, Bool.and_eq_true, decide_eq_true_eq] at hhears'
    exact hhears'.2

/-! ### One step -/

/-- Two players, whose ids a script can tell apart. -/
structure Players (w b : Uid) : Prop where
  white : w ≠ 0
  black : b ≠ 0
  ne : w ≠ b
  exactWhite : Exact w
  exactBlack : Exact b

theorem seats_iff (hseated : Room.Seated w b r) (uid : Uid) : r.Seats uid ↔ uid = w ∨ uid = b := by
  rcases hseated.seats with ⟨hw, hb⟩ | ⟨hw, hb⟩
  · rw [Room.Seats, hw, hb]
  · rw [Room.Seats, hw, hb, or_comm]

theorem Players.fit (h : Players w b) (hseated : Room.Seated w b r) : Page.Fit r where
  ne := hseated.seats_ne h.ne
  white := hseated.white_ne_zero h.white h.black
  black := hseated.black_ne_zero h.white h.black
  exact u hu := by
    rcases (seats_iff hseated u).mp hu with rfl | rfl
    · exact h.exactWhite
    · exact h.exactBlack

theorem around_tells {env : Env} {m : Members} {r' : Room} (h : r.Tells env m r' resp) : Around r r' := by
  cases h with
  | refused | chatted | timedOut | walkover | won | invited => exact ⟨rfl, fun _ => Iff.rfl, rfl⟩
  | moved => exact ⟨by rw [Room.passTurn_eq], fun uid => by simp [Room.Seats], by rw [Room.passTurn_eq]⟩
  | accepted => exact ⟨rfl, fun uid => by simp [Room.Seats, Room.startRematch, or_comm], rfl⟩

theorem around_exit (r : Room) (uid : Uid) : Around r (r.handleExit uid).1 := by
  rw [Room.handleExit_fst]
  exact ⟨rfl, fun _ => Iff.rfl, rfl⟩

/-- What a page sends when its user does something, or when its time is up. -/
theorem sends_send {msg : Option Members} (hout : c'.outbox = c.outbox) {P : Members → Prop}
    (h : ∀ m ∈ c.outbox, P m) (hmsg : ∀ m, msg = some m → P m) : ∀ m ∈ (c'.send msg).outbox, P m := by
  intro m hm
  simp only [Client.send] at hm
  split at hm
  · rcases List.mem_append.mp hm with hm | hm
    · exact h m (hout ▸ hm)
    · exact hmsg m (Option.mem_toList.mp hm)
  · exact h m (hout ▸ hm)

theorem message_of_briefed {roomId : Nat} {uid : Uid} {act : Act} {msg : Members} (h : c.Briefed roomId uid)
    (hmessage : act.message c.page = some msg) :
    ∃ room : RoomInfo, room.roomId = .int roomId ∧ room.uid = .uint uid ∧ room.Sends msg := by
  cases hroom : c.page.roomInfo with
  | some room => exact Page.message_sends (h.self hroom) hmessage
  | none =>
    exfalso
    cases hs : c.page.isSpectator <;> cases act <;>
      simp [Act.message, Page.onClick, Page.sendRematchInvite, Page.sendRematchAccept, Page.sendRematch, Page.sendChat, hs,
        hroom] at hmessage

theorem tick_of_briefed {roomId : Nat} {uid : Uid} {now : Rat} {msg : Members} (h : c.Briefed roomId uid)
    (htick : (c.page.tickClock now).2 = some msg) :
    ∃ room : RoomInfo, room.roomId = .int roomId ∧ room.uid = .uint uid ∧ room.Sends msg := by
  cases hroom : c.page.roomInfo with
  | some room => exact Page.tickClock_sends (h.self hroom) htick
  | none =>
    unfold Page.tickClock at htick
    split at htick
    · cases htick
    · simp only [hroom] at htick
      cases htick

theorem frame_of_same {p q : Page} (h : p.Same q) : q.roomInfo = p.roomInfo ∧ q.isSpectator = p.isSpectator := by
  rw [h]
  exact ⟨rfl, rfl⟩

theorem local_read {info : Members} {rest : List Members} (h : d.Sound w b) (hinbox : (d.clients who).inbox = info :: rest)
    (now : Rat) :
    d.Local w b who { d.clients who with page := (d.clients who).page.onMessage info now, inbox := rest } where
  live hline := hline
  absent hline := hline
  briefed uid hwho := by
    subst hwho
    exact (h.briefed uid).read hinbox
  sends uid hwho := by
    subst hwho
    exact h.sends uid
  shows hshown := by
    refine ⟨hshown, fun hmirrors => hmirrors.of_same ?_⟩
    rw [hinbox]
    exact ((Page.Same.refl _).onMessage).catchUp

theorem local_tick (h : d.Sound w b) (now : Rat) :
    d.Local w b who ({ d.clients who with page := ((d.clients who).page.tickClock now).1 }.send
      ((d.clients who).page.tickClock now).2) where
  live hline := hline
  absent hline := hline
  briefed uid hwho := by
    subst hwho
    obtain ⟨hinfo, hside⟩ := frame_of_same (Page.tickClock_same (p := (d.clients (.player uid)).page) now)
    exact (h.briefed uid).of_frame (fun h => h) hinfo hside rfl
  sends uid hwho := by
    subst hwho
    exact sends_send rfl (h.sends uid) fun m hm => tick_of_briefed (h.briefed uid) hm
  shows hshown := ⟨hshown, fun hmirrors => hmirrors.of_same (Page.tickClock_same now).catchUp⟩

theorem local_act (h : d.Sound w b) (act : Act) :
    d.Local w b who ((d.clients who).send (act.message (d.clients who).page)) where
  live hline := hline
  absent hline := hline
  briefed uid hwho := by
    subst hwho
    exact (h.briefed uid).of_frame (fun h => h) rfl rfl rfl
  sends uid hwho := by
    subst hwho
    exact sends_send rfl (h.sends uid) fun m hm => message_of_briefed (h.briefed uid) hm
  shows hshown := ⟨hshown, fun hmirrors => hmirrors⟩

theorem local_leave (h : d.Sound w b) :
    d.Local w b who { d.clients who with page := (d.clients who).page.leaveToHall, shown := false } where
  live hline := hline
  absent hline := hline
  briefed uid hwho := by
    subst hwho
    exact (h.briefed uid).of_frame (fun h => h) rfl rfl rfl
  sends uid hwho := by
    subst hwho
    exact h.sends uid
  shows hshown := by cases hshown

/-- A connection that is gone. -/
theorem local_gone {line : Line} (h : d.Sound w b) (hline : line = .lost ∨ line = .closed)
    (habsent : (d.clients who).line ≠ .absent) : d.Local w b who { d.clients who with line } where
  live hlive := by rcases hline with rfl | rfl <;> cases hlive
  absent h := absurd h habsent
  briefed uid hwho := by
    subst hwho
    exact (h.briefed uid).of_frame (fun h => absurd h habsent) rfl rfl rfl
  sends uid hwho := by
    subst hwho
    exact h.sends uid
  shows hshown := ⟨hshown, fun hmirrors => hmirrors⟩

theorem local_pop {uid : Uid} {msg : Members} {rest : List Members} (h : d.Sound w b)
    (hout : (d.clients (.player uid)).outbox = msg :: rest) :
    d.Local w b (.player uid) { d.clients (.player uid) with outbox := rest } where
  live hline := hline
  absent hline := hline
  briefed uid' hwho := by
    obtain rfl := Party.player.inj hwho
    exact (h.briefed uid).of_frame (fun h => h) rfl rfl rfl
  sends uid' hwho m hm := by
    obtain rfl := Party.player.inj hwho
    exact h.sends uid m (hout ▸ List.mem_cons_of_mem _ hm)
  shows hshown := ⟨hshown, fun hmirrors => hmirrors⟩

/-- Spectators come and go without the pages of others. -/
theorem mirrors_spectators {p : Page} {spectatorConns : Dict Uid ConnId} (h : p.Mirrors who r) :
    p.Mirrors who { r with spectatorConns } := by
  obtain ⟨room, hroom, hnames⟩ := h.info
  exact ⟨h.side, ⟨room, hroom, hnames.of_sameSeats ⟨rfl, rfl, rfl⟩⟩, h.isOver, h.board, h.turn, h.timed, h.active⟩

/-- A spectator's page after `spectate_ready`. -/
theorem mirrors_ready (env : Env) (hrun : r.statu = .gameStart) (uid : Uid) (now : Rat) :
    ((Page.opened true).onMessage (Server.spectateReady env r) now).Mirrors (.watcher uid) r := by
  have hget : ∀ name ∉ ["white_username", "black_username"], (Server.spectateReady env r).get name = Members.get
      [("optype", .str "spectate_ready"), ("result", .bool true), ("room_id", .int r.roomId), ("white_id", .uint r.whiteId),
        ("black_id", .uint r.blackId), ("statu", .int (if r.statu = .gameStart then 0 else 1)),
        ("board_snapshot", r.boardSnapshot)] name := fun name hname => Room.fillWhiteBlackUsernames_get hname
  have heq : (Page.opened true).onMessage (Server.spectateReady env r) now =
      (Page.opened true).spectateReady (Server.spectateReady env r) := by
    rw [Page.onMessage_eq (hget "result" (by decide)) (hget "optype" (by decide))]
    rfl
  rw [heq]
  exact
    { side := ⟨fun _ => ⟨uid, rfl⟩, fun _ => rfl⟩
      info := ⟨_, rfl, hget "room_id" (by decide), hget "white_id" (by decide), hget "black_id" (by decide),
        fun _ h => by cases h⟩
      isOver := by simp [Page.spectateReady, hrun]
      board := fun _ => Replica.join_board env r
      turn := fun _ h => by cases h
      timed := fun _ h => by cases h
      active := fun _ ht => by cases ht }

/-- A spectator comes or goes, and nobody else. -/
theorem Sound.of_watcher {spectatorConns : Dict Uid ConnId} (h : d.Sound w b) (uid : Uid)
    (hroom : d'.room = { d.room with spectatorConns }) (hconns : ∀ v, v ≠ uid → spectatorConns v = d.room.spectatorConns v)
    (hothers : ∀ who', who' ≠ .watcher uid → d'.clients who' = d.clients who')
    (hself : d'.hears (.watcher uid) = true → ((d'.clients (.watcher uid)).page.catchUp
      (d'.clients (.watcher uid)).inbox).Mirrors (.watcher uid) d'.room) : d'.Sound w b where
  seated := by
    rw [hroom]
    exact ⟨h.seated.seats, h.seated.turn⟩
  players uid' := by
    rw [hothers _ (by simp)]
    exact h.players uid'
  briefed uid' := by
    rw [hothers _ (by simp), hroom]
    exact h.briefed uid'
  sends uid' := by
    rw [hothers _ (by simp), hroom]
    exact h.sends uid'
  shows who' hhears hshown := by
    by_cases hwho : who' = .watcher uid
    · subst hwho
      exact hself hhears
    · rw [hothers who' hwho] at hshown ⊢
      rw [hroom]
      refine mirrors_spectators (h.shows who' ?_ hshown)
      simp only [hears, hothers who' hwho, hroom, Bool.and_eq_true] at hhears ⊢
      refine ⟨hhears.1, ?_⟩
      cases who' with
      | player v => exact hhears.2
      | watcher v =>
        have hv : v ≠ uid := fun heq => hwho (heq ▸ rfl)
        simpa only [hconns v hv] using hhears.2

/-- The steps of a duel, by what they need and what they leave. -/
inductive Steps (d : Duel) : DuelEvent → Duel → List Call → Prop
  | read {who : Party} {now : Int} {perf : Rat} {info : Members} {rest : List Members} :
      (d.clients who).inbox = info :: rest → (d.clients who).shown = true → d.clock ≤ now →
      Steps d (.read who now perf)
        { d.put who { d.clients who with page := (d.clients who).page.onMessage info perf, inbox := rest } with clock := now } []
  | tick {who : Party} {now : Int} {perf : Rat} :
      (d.clients who).shown = true → d.clock ≤ now →
      Steps d (.tick who now perf) { d.put who ({ d.clients who with page := ((d.clients who).page.tickClock perf).1 }.send
        ((d.clients who).page.tickClock perf).2) with clock := now } []
  | act {who : Party} {act : Act} :
      (d.clients who).shown = true →
      Steps d (.act who act) (d.put who ((d.clients who).send (act.message (d.clients who).page))) []
  | serve {uid : Uid} {selectById : Uid → Option Members} {now later : Int} {msg : Members} {rest : List Members}
      {room : Room} {calls : List Call} :
      (d.clients (.player uid)).outbox = msg :: rest → (d.clients (.player uid)).line = .live → d.clock ≤ now → now ≤ later →
      d.room.handleRequest (d.env selectById now later) (.obj msg) = .ok (room, calls) →
      Steps d (.serve uid selectById now later) ({ d.put (.player uid) { d.clients (.player uid) with outbox := rest } with
        room
        clock := later }.announce calls) calls
  | leave {who : Party} :
      Steps d (.leave who)
        (d.put who { d.clients who with page := (d.clients who).page.leaveToHall, shown := false }) []
  | vanish {who : Party} :
      (d.clients who).line = .live → Steps d (.vanish who) (d.put who { d.clients who with line := .lost }) []
  | exit {uid : Uid} :
      (d.clients (.player uid)).line = .live ∨ (d.clients (.player uid)).line = .lost →
      Steps d (.exit uid) ({ d.put (.player uid) { d.clients (.player uid) with line := .closed } with
        room := (d.room.handleExit uid).1 }.announce (d.room.handleExit uid).2) (d.room.handleExit uid).2
  | watch {uid : Uid} {conn : ConnId} {selectById : Uid → Option Members} {room : Room} :
      d.room.statu = .gameStart → room = (d.room.removeSpectator uid).addSpectator uid conn →
      Steps d (.watch uid conn selectById)
        { d.put (.watcher uid) (.entered true (Server.spectateReady (d.env selectById 0 0) room)) with room } []
  | unwatch {uid : Uid} :
      Steps d (.unwatch uid) { d.put (.watcher uid) { d.clients (.watcher uid) with line := .closed } with
        room := d.room.removeSpectator uid } []

theorem step_inv {e : DuelEvent} (hs : machine.step d e = some (d', calls)) : d.Steps e d' calls := by
  cases e with
  | read who now perf =>
    simp only [machine] at hs
    split at hs
    · cases hs
    · rename_i info rest hinbox
      split at hs
      · rename_i hready
        obtain ⟨rfl, rfl⟩ := Prod.mk.inj (Option.some.inj hs)
        exact .read hinbox hready.1 hready.2
      · cases hs
  | tick who now perf =>
    simp only [machine] at hs
    split at hs
    · rename_i hready
      obtain ⟨rfl, rfl⟩ := Prod.mk.inj (Option.some.inj hs)
      exact .tick hready.1 hready.2.2
    · cases hs
  | act who act =>
    simp only [machine] at hs
    split at hs
    · rename_i hshown
      obtain ⟨rfl, rfl⟩ := Prod.mk.inj (Option.some.inj hs)
      exact .act hshown
    · cases hs
  | serve uid selectById now later =>
    simp only [machine] at hs
    split at hs
    · cases hs
    · rename_i msg rest hout
      split at hs
      · rename_i hready
        split at hs
        · cases hs
        · rename_i room calls' hreq
          obtain ⟨rfl, rfl⟩ := Prod.mk.inj (Option.some.inj hs)
          exact .serve hout hready.1 hready.2.1 hready.2.2 hreq
      · cases hs
  | leave who =>
    obtain ⟨rfl, rfl⟩ := Prod.mk.inj (Option.some.inj hs)
    exact .leave
  | vanish who =>
    simp only [machine] at hs
    split at hs
    · rename_i hlive
      obtain ⟨rfl, rfl⟩ := Prod.mk.inj (Option.some.inj hs)
      exact .vanish hlive
    · cases hs
  | exit uid =>
    simp only [machine] at hs
    split at hs
    · rename_i hline
      obtain ⟨rfl, rfl⟩ := Prod.mk.inj (Option.some.inj hs)
      exact .exit hline
    · cases hs
  | watch uid conn selectById =>
    simp only [machine] at hs
    split at hs
    · rename_i hrun
      obtain ⟨rfl, rfl⟩ := Prod.mk.inj (Option.some.inj hs)
      exact .watch hrun rfl
    · cases hs
  | unwatch uid =>
    obtain ⟨rfl, rfl⟩ := Prod.mk.inj (Option.some.inj hs)
    exact .unwatch

theorem Sound.step {e : DuelEvent} (hp : Players w b) (h : d.Sound w b) (hs : machine.step d e = some (d', calls)) :
    d'.Sound w b := by
  have hfit := hp.fit h.seated
  cases step_inv hs with
  | read hinbox => exact (h.put (local_read h hinbox _)).at _
  | tick => exact (h.put (local_tick h _)).at _
  | act => exact h.put (local_act h _)
  | @serve uid _ _ _ msg _ _ _ hout hlive _ _ hreq =>
    obtain ⟨info, hid, huid, hsends⟩ := h.sends uid msg (hout ▸ List.mem_cons_self)
    obtain ⟨-, -, hwinner, hop⟩ := hsends.get
    obtain ⟨resp, hcalls, htells⟩ := Room.handleRequest_tells hfit.white hfit.black hwinner hop hreq
    have hseat : d.room.Seats uid := (seats_iff h.seated uid).mpr (h.players uid (by simp [hlive]))
    exact (h.put (local_pop h hout)).announce (around_tells htells)
      (h.seated.step hp.white hp.black (Room.step_of_ok hreq)) hcalls (Page.keepsSelf_tells hsends htells)
      fun who' p hmirrors hwho => hmirrors.told hfit hwho hsends huid hseat htells
  | leave => exact h.put (local_leave h)
  | vanish hlive => exact h.put (local_gone h (Or.inl rfl) (by simp [hlive]))
  | @exit uid hline =>
    have habsent : (d.clients (.player uid)).line ≠ .absent := by rcases hline with hline | hline <;> simp [hline]
    obtain ⟨resp, hcalls, htold⟩ := Page.told_exit hfit uid
    exact (h.put (local_gone h (Or.inr rfl) habsent)).announce (around_exit _ _)
      (h.seated.step hp.white hp.black (e := .exit uid) rfl) hcalls (Page.keepsSelf_exit _ hcalls)
      fun who' p hmirrors _ => htold hmirrors
  | @watch uid conn selectById room hrun hroom =>
    subst hroom
    refine h.of_watcher uid rfl (fun v hv => ?_) (fun who' hwho => put_ne hwho) fun _ => ?_
    · rw [Dict.assign_ne hv]
      exact Dict.erase_ne hv
    · rw [put_self]
      exact mirrors_ready (r := (d.room.removeSpectator uid).addSpectator uid conn) _ hrun uid 0
  | @unwatch uid =>
    refine h.of_watcher uid rfl (fun v hv => Dict.erase_ne hv) (fun who' hwho => put_ne hwho) fun hhears => ?_
    have hlive := hears_live hhears
    rw [put_self] at hlive
    cases hlive

/-! ### Runs -/

variable {ts : List DuelTrans} {roomId : Nat} {now : Int} {selectById : Uid → Option Members}

theorem readyFor_get {env : Env} {uid : Uid} {name : String} (hname : name ∉ ["white_username", "black_username"]) :
    (r.readyFor env uid).get name = Members.get
      [("optype", .str "room_ready"), ("result", .bool true), ("room_id", .int r.roomId), ("uid", .uint uid),
        ("white_id", .uint r.whiteId), ("black_id", .uint r.blackId), ("timing_started", .bool false),
        ("total_init_ms", .int totalInitMs), ("step_init_ms", .int stepInitMs)] name := Room.fillWhiteBlackUsernames_get hname

theorem onMessage_ready {env : Env} {uid : Uid} {p : Page} {t : Rat} (hside : p.isSpectator = false) :
    p.onMessage (r.readyFor env uid) t = p.roomReady (r.readyFor env uid) := by
  rw [Page.onMessage_eq (readyFor_get (by decide)) (readyFor_get (by decide)), hside]
  rfl

theorem ofMessage_ready {env : Env} {uid : Uid} : RoomInfo.ofMessage (r.readyFor env uid) =
    ⟨.int r.roomId, .uint uid, .uint r.whiteId, .uint r.blackId⟩ := by
  have hroomId : (r.readyFor env uid).get "room_id" = .int r.roomId := readyFor_get (by decide)
  have huid : (r.readyFor env uid).get "uid" = .uint uid := readyFor_get (by decide)
  have hwhite : (r.readyFor env uid).get "white_id" = .uint r.whiteId := readyFor_get (by decide)
  have hblack : (r.readyFor env uid).get "black_id" = .uint r.blackId := readyFor_get (by decide)
  rw [RoomInfo.ofMessage, hroomId, huid, hwhite, hblack]

theorem roomReady_eq {env : Env} {uid : Uid} {p : Page} : p.roomReady (r.readyFor env uid) = { p with
    roomInfo := some ⟨.int r.roomId, .uint uid, .uint r.whiteId, .uint r.blackId⟩
    myTurn := !(Json.uint uid).sameId (.uint r.whiteId)
    timingStarted := false
    clocks := p.clocks.reset (r.readyFor env uid) } := by
  have htiming : (r.readyFor env uid).get "timing_started" = .bool false := readyFor_get (by decide)
  rw [Page.roomReady, ofMessage_ready, htiming]

theorem self_ready {env : Env} {uid : Uid} {p : Page} {t : Rat} (hside : p.isSpectator = false) :
    (p.onMessage (r.readyFor env uid) t).Self r.roomId uid := by
  rw [onMessage_ready hside, roomReady_eq]
  exact ⟨hside, _, rfl, rfl, rfl⟩

/-- A player's page after `room_ready` in a room that nobody has played in. -/
theorem mirrors_entered (hp : Players w b) (env : Env) {uid : Uid} (huid : uid = w ∨ uid = b) (t : Rat) :
    ((Page.opened false).onMessage ((Room.create roomId w b now).readyFor env uid) t).Mirrors (.player uid)
      (Room.create roomId w b now) := by
  rw [onMessage_ready rfl, roomReady_eq]
  refine
    { side := ⟨fun h => (by cases h), fun ⟨_, h⟩ => by cases h⟩
      info := ⟨_, rfl, rfl, rfl, rfl, ?_⟩
      isOver := ⟨fun h => (by cases h), fun h => by cases h⟩
      board := fun _ => rfl
      turn := ?_
      timed := fun _ _ _ ht => by cases ht
      active := fun _ ht => by cases ht }
  · intro v hv
    rw [Party.player.inj hv]
  · intro v hv _
    obtain rfl := Party.player.inj hv
    have hexact : Exact uid := by
      rcases huid with rfl | rfl
      · exact hp.exactWhite
      · exact hp.exactBlack
    change (!(Json.uint uid).sameId (.uint w)) = true ↔ b = uid
    rw [Json.sameId_uint hexact hp.exactWhite]
    rcases huid with rfl | rfl
    · simp [hp.ne.symm]
    · simp [hp.ne.symm]

theorem sound_start (hp : Players w b) : (start roomId w b now selectById).Sound w b := by
  have hseats : ∀ uid, (Room.create roomId w b now).Seats uid ↔ uid = w ∨ uid = b :=
    seats_iff (Room.seated_create roomId now)
  have hclient : ∀ uid, (start roomId w b now selectById).clients (.player uid) =
      if (Room.create roomId w b now).Seats uid then .entered false
        ((Room.create roomId w b now).readyFor ⟨.empty, fun _ => true, selectById, now, now⟩ uid) else .away := fun _ => rfl
  refine ⟨Room.seated_create roomId now, fun uid hline => ?_, fun uid => ?_, fun uid => ?_, fun who hhears _ => ?_⟩
  · rw [hclient] at hline
    by_contra hno
    rw [if_neg fun h => hno ((hseats uid).mp h)] at hline
    exact hline rfl
  · rw [hclient]
    split
    · exact .greeted rfl rfl rfl (fun hside => self_ready hside) fun _ h => by cases h
    · exact .away rfl rfl rfl
  · rw [hclient]
    intro msg hmsg
    split at hmsg <;> cases hmsg
  · cases who with
    | player uid =>
      simp only [hears, Bool.and_eq_true, decide_eq_true_eq] at hhears
      have hseat : (Room.create roomId w b now).Seats uid := hhears.2
      rw [hclient, if_pos hseat]
      exact mirrors_entered hp _ ((hseats uid).mp hseat) 0
    | watcher uid =>
      have hlive := hears_live hhears
      cases hlive

theorem run_sound (hp : Players w b) (h : machine.Run (start roomId w b now selectById) ts d) : d.Sound w b :=
  h.invariant (sound_start hp) fun hi hs => hi.step hp hs

end Duel
end FiveStones
