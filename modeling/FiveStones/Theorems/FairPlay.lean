import FiveStones.Lib.Simulation
import FiveStones.Rules
import FiveStones.Theorems.Opening
import FiveStones.Theorems.Orderly
import FiveStones.Theorems.Refusal

/-! A room with its pages plays by the rules: whatever is on the way, and in whatever order it arrives, the stones and the
payments of the room are those of a table. -/

namespace FiveStones

/-- What a room pays for, in order. -/
def settlements (calls : List Call) : List Call := calls.filter Call.pays

theorem settlements_append (calls calls' : List Call) :
    settlements (calls ++ calls') = settlements calls ++ settlements calls' := List.filter_append ..

namespace Table
variable {t : Table} {p : Turns.Position Cell} {c : Cell} {uid : Uid} {color : Chess}

theorem seatOf_first (t : Table) : t.seatOf stoneSides.first = t.black := rfl

theorem seatOf_second (t : Table) : t.seatOf stoneSides.second = t.white := rfl

open Classical in
theorem step_stone (hgame : t.game = some p) (hfree : c ∉ p.points) (hfull : t.Full)
    (hno : ¬(boardOf (p.play c hfree)).FiveInRow (p.toMove stoneSides)) :
    machine.step t (.stone c) = some ({ t with game := some (p.play c hfree) }, []) := by
  simp only [machine, hgame, dif_pos (And.intro hfree hfull), if_neg hno]

open Classical in
theorem step_five (hgame : t.game = some p) (hfree : c ∉ p.points) (hfull : t.Full)
    (hfive : (boardOf (p.play c hfree)).FiveInRow (p.toMove stoneSides)) : machine.step t (.stone c) =
      some (t.settle (t.seatOf (p.toMove stoneSides)) (t.opponentOf (t.seatOf (p.toMove stoneSides)))) := by
  simp only [machine, hgame, dif_pos (And.intro hfree hfull), if_pos hfive]

theorem step_timeUp (hgame : t.game = some p) (hbegun : p.points ≠ []) : machine.step t .timeUp =
    some (t.settle (t.opponentOf (t.seatOf (p.toMove stoneSides))) (t.seatOf (p.toMove stoneSides))) := by
  simp only [machine, hgame, if_neg hbegun]

theorem step_forfeit (hgame : t.game ≠ none) (hseat : uid = t.white ∨ uid = t.black) (hgone : t.here uid = false) :
    machine.step t (.forfeit uid) = some (t.settle (t.opponentOf uid) uid) := by
  simp only [machine, if_pos (And.intro hgame (And.intro hseat hgone))]

theorem step_again (hgame : t.game = none) (hfull : t.Full) : machine.step t .again =
    some ({ t with white := t.black, black := t.white, game := some .empty }, []) := by
  simp only [machine, if_pos (And.intro hgame hfull)]

end Table

namespace Duel
variable {d d' : Duel} {t : Table} {w b uid : Uid} {calls : List Call} {ts : List DuelTrans} {r : Room} {m : Members}
  {rest : List Members} {selectById : Uid → Option Members} {now later : Int} {p : Turns.Position Cell} {c : Cell} {color : Chess}

/-- The room is where the table is. -/
structure Follows (d : Duel) (t : Table) : Prop where
  white : t.white = d.room.whiteId
  black : t.black = d.room.blackId
  here : ∀ uid, d.room.Seats uid → (t.here uid = true ↔ (d.clients (.player uid)).line = .live)
  isOver : t.game = none ↔ d.room.statu = .gameOver
  board : ∀ p, t.game = some p → d.room.board = boardOf p
  turn : ∀ p, t.game = some p → d.room.turnUid = t.seatOf (p.toMove stoneSides)
  begun : ∀ p, t.game = some p → (d.room.timingStarted = true ↔ p.points ≠ [])

namespace Follows

theorem opponentOf_eq (h : d.Follows t) (uid : Uid) : t.opponentOf uid = d.room.opponentOf uid := by
  rw [Table.opponentOf, Room.opponentOf, h.white, h.black]

theorem seatOf_eq (h : d.Follows t) (color : Chess) : t.seatOf color = d.room.seatOf color := by
  cases color
  · exact h.white
  · exact h.black

theorem game_of_running (h : d.Follows t) (hrun : d.room.statu = .gameStart) : ∃ p, t.game = some p :=
  Option.ne_none_iff_exists'.mp fun hnone => Room.absurd_statu hrun (h.isOver.mp hnone)

theorem full (h : d.Follows t) (htogether : d.Together) : t.Full := by
  refine ⟨(h.here _ ?_).mpr (htogether _ ?_), (h.here _ ?_).mpr (htogether _ ?_)⟩
  · exact Or.inl h.white
  · exact Or.inl h.white
  · exact Or.inr h.black
  · exact Or.inr h.black

/-- The room is as it was, and so are the connections of the players. -/
theorem of_same (h : d.Follows t) (hroom : d'.room = d.room)
    (hline : ∀ uid, (d'.clients (.player uid)).line = .live ↔ (d.clients (.player uid)).line = .live) : d'.Follows t where
  white := hroom ▸ h.white
  black := hroom ▸ h.black
  here uid hseat := (h.here uid (hroom ▸ hseat)).trans (hline uid).symm
  isOver := hroom ▸ h.isOver
  board := hroom ▸ h.board
  turn := hroom ▸ h.turn
  begun := hroom ▸ h.begun

/-- The game is over. -/
theorem ended (h : d.Follows t) (hseats : d.room.SameSeats d'.room) (hover : d'.room.statu = .gameOver)
    (hline : ∀ uid, (d'.clients (.player uid)).line = .live ↔ (d.clients (.player uid)).line = .live) :
    d'.Follows { t with game := none } where
  white := h.white.trans hseats.whiteId.symm
  black := h.black.trans hseats.blackId.symm
  here uid hseat := by
    rw [Room.Seats, hseats.whiteId, hseats.blackId] at hseat
    exact (h.here uid hseat).trans (hline uid).symm
  isOver := ⟨fun _ => hover, fun _ => rfl⟩
  board _ hgame := by cases hgame
  turn _ hgame := by cases hgame
  begun _ hgame := by cases hgame

/-- The mover has the colour whose turn it is. -/
theorem color_eq (h : d.Follows t) (hgame : t.game = some p) (hne : d.room.whiteId ≠ d.room.blackId) {env : Env}
    (places : d.room.Places env m uid c color) (hturn : uid = d.room.turnUid) : color = p.toMove stoneSides := by
  have hseat := h.turn p hgame
  rw [places.color_eq, hturn, hseat]
  cases p.toMove stoneSides with
  | white => exact if_pos h.white
  | black => exact if_neg fun heq => hne (heq.symm.trans h.black)

theorem board_play (h : d.Follows t) (hgame : t.game = some p) (hfree : c ∉ p.points) (hcolor : color = p.toMove stoneSides) :
    boardOf (p.play c hfree) = d.room.board.set c color := by
  rw [h.board p hgame, boardOf, Turns.Position.owner_play hfree, hcolor]
  rfl

theorem free (h : d.Follows t) (hgame : t.game = some p) (hfree : d.room.board c = none) : c ∉ p.points := by
  rw [h.board p hgame] at hfree
  exact Turns.Position.owner_eq_none.mp hfree

/-- A stone after which the game goes on. -/
theorem moved (h : d.Follows t) (hgame : t.game = some p) (hne : d.room.whiteId ≠ d.room.blackId) {env : Env}
    (places : d.room.Places env m uid c color) (hturn : uid = d.room.turnUid) (hfree : c ∉ p.points)
    (hroom : d'.room = (d.room.withStone c color).passTurn env uid (d.room.thinkingMs env))
    (hline : ∀ uid, (d'.clients (.player uid)).line = .live ↔ (d.clients (.player uid)).line = .live) :
    d'.Follows { t with game := some (p.play c hfree) } where
  white := by simp [hroom, h.white]
  black := by simp [hroom, h.black]
  here uid hseat := by
    simp only [Room.Seats, hroom, Room.passTurn_whiteId, Room.passTurn_blackId] at hseat
    exact (h.here uid hseat).trans (hline uid).symm
  isOver := by simp [hroom, places.running]
  board q hq := by
    obtain rfl := Option.some.inj hq
    rw [hroom, Room.passTurn_board]
    exact (h.board_play hgame hfree (h.color_eq hgame hne places hturn)).symm
  turn q hq := by
    obtain rfl := Option.some.inj hq
    rw [hroom, Room.passTurn_turnUid, hturn, h.turn p hgame]
    change d.room.opponentOf (t.seatOf (p.toMove stoneSides)) = t.seatOf ((p.play c hfree).toMove stoneSides)
    rcases p.toMove_play_cases stoneSides hfree with ⟨hmover, hnext⟩ | ⟨hmover, hnext⟩
    · rw [hmover, hnext, Table.seatOf_first, Table.seatOf_second, h.white, h.black, Room.opponentOf_black hne]
    · rw [hmover, hnext, Table.seatOf_first, Table.seatOf_second, h.white, h.black, Room.opponentOf_white]
  begun q hq := by
    obtain rfl := Option.some.inj hq
    simp [hroom, Turns.Position.play]

/-- A table at which a player is gone. -/
theorem forfeited (h : d.Follows t) (hrun : d.room.statu = .gameStart) (hseat : d.room.Seats uid)
    (hgone : (d.clients (.player uid)).line ≠ .live) :
    Table.machine.step t (.forfeit uid) = some (t.settle (d.room.opponentOf uid) uid) := by
  rw [← h.opponentOf_eq uid]
  refine Table.step_forfeit ?_ ?_ ?_
  · obtain ⟨p, hp⟩ := h.game_of_running hrun
    simp [hp]
  · rw [h.white, h.black]
    exact hseat
  · rw [← Bool.not_eq_true, h.here uid hseat]
    exact hgone

end Follows

/-- What the room does with a message of a page is a step of the table, or none. -/
theorem Follows.serve (h : d.Follows t) (hfit : Page.Fit d.room) (hno : d.room.NoFive) (hown : m.get "winner" = .null)
    (hturn : ∀ {uid c color}, d.room.Places (d.env selectById now later) m uid c color → uid = d.room.turnUid)
    (hanswer : d.room.Answer (d.env selectById now later) m r calls) (hroom : d'.room = r)
    (hline : ∀ uid, (d'.clients (.player uid)).line = .live ↔ (d.clients (.player uid)).line = .live) :
    ∃ t', Table.machine.Reaches t (settlements calls) t' ∧ d'.Follows t' := by
  cases hanswer with
  | refused | chatted => exact ⟨t, .refl, h.of_same hroom hline⟩
  | timeUp hrun hstarted hnames =>
    obtain ⟨p, hp⟩ := h.game_of_running hrun
    have hstep := Table.step_timeUp hp ((h.begun p hp).mp hstarted)
    rw [← h.turn p hp, h.opponentOf_eq] at hstep
    exact ⟨_, .one hstep, h.ended ⟨by rw [hroom]; rfl, by rw [hroom]; rfl, by rw [hroom]; rfl⟩ (by rw [hroom]; rfl) hline⟩
  | walkover admits _ habsent =>
    have hended : d'.Follows { t with game := none } :=
      h.ended ⟨by rw [hroom], by rw [hroom], by rw [hroom]⟩ (by rw [hroom]) hline
    rcases habsent with ⟨hwhite, rfl⟩ | ⟨-, hblack, rfl⟩
    · rw [inGameRoom_env, decide_eq_false_iff_not] at hwhite
      have hstep := h.forfeited admits.running (Or.inl rfl) hwhite
      rw [Room.opponentOf_white] at hstep
      rw [Room.opponentOf_black hfit.ne]
      exact ⟨_, .one hstep, hended⟩
    · rw [inGameRoom_env, decide_eq_false_iff_not] at hblack
      have hstep := h.forfeited admits.running (Or.inr rfl) hblack
      rw [Room.opponentOf_black hfit.ne] at hstep
      rw [Room.opponentOf_white]
      exact ⟨_, .one hstep, hended⟩
  | drifted _ _ habsent => exact absurd rfl (habsent.ne_zero hfit.white hfit.black)
  | claimed _ _ hwinner hzero =>
    rw [hown] at hwinner
    exact absurd (Except.ok.inj hwinner).symm hzero
  | @placed uid c color _ places hwin =>
    obtain ⟨p, hp⟩ := h.game_of_running places.running
    have hfree := h.free hp places.free
    have hcolor := h.color_eq hp hfit.ne places (hturn places)
    refine ⟨_, .one (Table.step_stone hp hfree (h.full (together_iff.mp places.online)) ?_),
      h.moved hp hfit.ne places (hturn places) hfree hroom hline⟩
    rw [h.board_play hp hfree hcolor, ← hcolor]
    exact fun hfive => (Room.checkWin_withStone hfit.white hfit.black (hno places.running color)).mpr hfive hwin
  | @won uid winner c color _ places hwin hzero =>
    obtain ⟨p, hp⟩ := h.game_of_running places.running
    have hfree := h.free hp places.free
    have hcolor := h.color_eq hp hfit.ne places (hturn places)
    have hwinner : winner = t.seatOf (p.toMove stoneSides) := by
      rw [← hwin, Room.checkWin_eq_seatOf (hwin ▸ hzero), ← hcolor, h.seatOf_eq color]
      cases color <;> rfl
    have hstep := Table.step_five hp hfree (h.full (together_iff.mp places.online)) (by
      rw [h.board_play hp hfree hcolor, ← hcolor]
      exact Room.fiveInRow_of_checkWin (hwin ▸ hzero))
    rw [← hwinner, h.opponentOf_eq] at hstep
    exact ⟨_, .one hstep, h.ended ⟨by rw [hroom], by rw [hroom], by rw [hroom]⟩ (by rw [hroom]) hline⟩
  | invite _ _ hover =>
    exact ⟨t, .refl,
      { white := by rw [hroom]; exact h.white
        black := by rw [hroom]; exact h.black
        here := fun v hv => (h.here v (by rw [hroom] at hv; exact hv)).trans (hline v).symm
        isOver := by rw [hroom]; exact h.isOver
        board := by rw [hroom]; exact h.board
        turn := by rw [hroom]; exact h.turn
        begun := by rw [hroom]; exact h.begun }⟩
  | accept _ _ hover _ _ _ honline =>
    refine ⟨_, .one (Table.step_again (h.isOver.mpr hover) (h.full (together_iff.mp honline))), ?_⟩
    exact
      { white := by rw [hroom]; exact h.black
        black := by rw [hroom]; exact h.white
        here := fun v hv => (h.here v (by rw [hroom] at hv; exact hv.symm)).trans (hline v).symm
        isOver := by simp [hroom, Room.startRematch]
        board := fun p hp => by
          obtain rfl := Option.some.inj hp
          rw [hroom]
          rfl
        turn := fun p hp => by
          obtain rfl := Option.some.inj hp
          rw [hroom]
          exact h.white.symm
        begun := fun p hp => by
          obtain rfl := Option.some.inj hp
          simp [hroom, Room.startRematch, Turns.Position.empty] }

/-- A player who leaves departs from the table, and forfeits the game that is being played. -/
theorem Follows.exit (h : d.Follows t) (hfit : Page.Fit d.room) (hseat : d.room.Seats uid)
    (hroom : d'.room = (d.room.handleExit uid).1)
    (hline : ∀ v, (d'.clients (.player v)).line = .live ↔ v ≠ uid ∧ (d.clients (.player v)).line = .live) :
    ∃ t', Table.machine.Reaches t (settlements (d.room.handleExit uid).2) t' ∧ d'.Follows t' := by
  have hstep : Table.machine.step t (.depart uid) = some ({ t with here := Function.update t.here uid false }, []) := rfl
  have hwhite : d'.room.whiteId = d.room.whiteId := by rw [hroom, Room.handleExit_fst]
  have hblack : d'.room.blackId = d.room.blackId := by rw [hroom, Room.handleExit_fst]
  have hover : d'.room.statu = .gameOver := by rw [hroom, Room.handleExit_fst]
  have hleft : d'.Follows { t with here := Function.update t.here uid false, game := none } :=
    { white := h.white.trans hwhite.symm
      black := h.black.trans hblack.symm
      here := fun v hv => by
        rw [Room.Seats, hwhite, hblack] at hv
        rw [hline v]
        by_cases hne : v = uid
        · simp [hne]
        · simp only [Function.update_of_ne hne, hne, not_false_eq_true, ne_eq, true_and]
          exact h.here v hv
      isOver := ⟨fun _ => hover, fun _ => rfl⟩
      board := fun _ hp => by cases hp
      turn := fun _ hp => by cases hp
      begun := fun _ hp => by cases hp }
  cases hs : d.room.statu with
  | gameOver =>
    have hnone := h.isOver.mpr hs
    have hcalls : settlements (d.room.handleExit uid).2 = [] := by simp only [Room.handleExit, hs]; rfl
    rw [hcalls]
    refine ⟨_, .one hstep, ?_⟩
    rw [hnone] at *
    exact hleft
  | gameStart =>
    have hcalls : settlements (d.room.handleExit uid).2 = [.win (d.room.opponentOf uid), .lose uid] := by
      have hloser : (if uid = d.room.whiteId then d.room.whiteId else d.room.blackId) = uid := by
        rcases hseat with rfl | rfl
        · exact if_pos rfl
        · exact if_neg hfit.ne.symm
      simp only [Room.handleExit, hs, hloser]
      rfl
    rw [hcalls]
    obtain ⟨p, hp⟩ := h.game_of_running hs
    have hforfeit : Table.machine.step { t with here := Function.update t.here uid false } (.forfeit uid) =
        some (Table.settle { t with here := Function.update t.here uid false } (d.room.opponentOf uid) uid) := by
      rw [← h.opponentOf_eq uid]
      exact Table.step_forfeit (by simp [hp]) (by rw [h.white, h.black]; exact hseat) (by simp)
    refine ⟨_, .trans (.one hstep) (.one hforfeit), ?_⟩
    exact hleft

/-- A player's connection goes. -/
theorem Follows.departed (h : d.Follows t) (uid : Uid) (hroom : d'.room = d.room)
    (hline : ∀ v, (d'.clients (.player v)).line = .live ↔ v ≠ uid ∧ (d.clients (.player v)).line = .live) :
    ∃ t', Table.machine.Reaches t [] t' ∧ d'.Follows t' := by
  have hstep : Table.machine.step t (.depart uid) = some ({ t with here := Function.update t.here uid false }, []) := rfl
  refine ⟨_, .one hstep, ?_⟩
  exact
    { white := hroom ▸ h.white
      black := hroom ▸ h.black
      here := fun v hv => by
        rw [hline v]
        by_cases hne : v = uid
        · simp [hne]
        · simp only [Function.update_of_ne hne, hne, not_false_eq_true, ne_eq, true_and]
          exact h.here v (hroom ▸ hv)
      isOver := hroom ▸ h.isOver
      board := hroom ▸ h.board
      turn := hroom ▸ h.turn
      begun := hroom ▸ h.begun }

/-- A spectator comes or goes. -/
theorem Follows.of_watcher {c' : Client} {spectatorConns : Dict Uid ConnId} (h : d.Follows t) :
    { d.put (.watcher uid) c' with room := { d.room with spectatorConns } }.Follows t where
  white := h.white
  black := h.black
  here v hv := (h.here v hv).trans (by
    change _ ↔ ((d.put (.watcher uid) c').clients (.player v)).line = .live
    rw [put_ne (by simp)])
  isOver := h.isOver
  board := h.board
  turn := h.turn
  begun := h.begun

theorem put_line_gone {c' : Client} (hline : c'.line ≠ .live) (v : Uid) :
    ((d.put (.player uid) c').clients (.player v)).line = .live ↔ v ≠ uid ∧ (d.clients (.player v)).line = .live := by
  by_cases hne : v = uid
  · subst hne
    simp [put_self, hline]
  · rw [put_ne (by simpa using hne)]
    simp [hne]

theorem follows_step {e : DuelEvent} (hp : Players w b) (hsound : d.Sound w b) (horderly : d.Orderly) (hno : d.room.NoFive)
    (h : d.Follows t) (hs : machine.step d e = some (d', calls)) :
    ∃ t', Table.machine.Reaches t (settlements calls) t' ∧ d'.Follows t' := by
  have hfit := hp.fit hsound.seated
  cases step_inv hs with
  | read | tick | act | leave =>
    refine ⟨t, .refl, h.of_same rfl fun v => Eq.congr_left (put_field Client.line ?_ (.player v))⟩
    rfl
  | @vanish who =>
    cases who with
    | watcher uid => exact ⟨t, .refl, h.of_same rfl fun v => by rw [put_ne (by simp)]⟩
    | player uid => exact h.departed uid rfl fun v => put_line_gone (by simp) v
  | @serve uid _ _ _ m rest _ _ hout hlive _ _ hreq =>
    obtain ⟨info, -, hself, hsends⟩ := hsound.sends uid m (hout ▸ List.mem_cons_self)
    obtain ⟨-, huid, hwinner, hop⟩ := hsends.get
    have hnames : (m.get "uid").asUInt64 = .ok uid := by rw [huid, hself, Json.asUInt64_uint]
    obtain ⟨m', hm, hanswer⟩ := Room.handleRequest_answer hreq
    obtain rfl := Except.ok.inj hm
    obtain ⟨resp, hcalls, htells⟩ := Room.handleRequest_tells hfit.white hfit.black hwinner hop hreq
    have hseat : d.room.Seats uid := (seats_iff hsound.seated uid).mpr (hsound.players uid (by simp [hlive]))
    refine h.serve hfit hno hwinner (fun places => ?_) hanswer rfl fun v => ?_
    · obtain rfl := Except.ok.inj (hnames.symm.trans places.names)
      exact horderly.in_turn hout hseat places
    · have hline := announce_line (d := d.put (.player uid) { d.clients (.player uid) with outbox := rest }) (t := d.clock)
        (around_tells htells) hcalls (.player v)
      refine Eq.congr_left (hline.trans (put_field Client.line ?_ (.player v)))
      rfl
  | @exit uid hline =>
    obtain ⟨resp, hcalls, -⟩ := Page.told_exit hfit uid
    have hseat : d.room.Seats uid :=
      (seats_iff hsound.seated uid).mpr (hsound.players uid (by rcases hline with hline | hline <;> simp [hline]))
    refine h.exit hfit hseat rfl fun v => ?_
    have hline := announce_line (d := d.put (.player uid) { d.clients (.player uid) with line := .closed }) (t := d.clock)
      (around_exit _ uid) hcalls (.player v)
    exact (Eq.congr_left hline).trans (put_line_gone (by simp) v)
  | @watch uid _ _ _ _ hroom =>
    subst hroom
    exact ⟨t, .refl, h.of_watcher⟩
  | @unwatch uid => exact ⟨t, .refl, h.of_watcher⟩

theorem noFive_step {e : DuelEvent} (hp : Players w b) (hseated : Room.Seated w b d.room) (h : d.room.NoFive)
    (hs : machine.step d e = some (d', calls)) : d'.room.NoFive := by
  have hwhite := hseated.white_ne_zero hp.white hp.black
  have hblack := hseated.black_ne_zero hp.white hp.black
  cases step_inv hs with
  | read | tick | act | leave | vanish | unwatch => exact h
  | serve _ _ _ _ hreq => exact h.step hwhite hblack (Room.step_of_ok hreq)
  | @exit uid => exact h.step hwhite hblack (e := .exit uid) rfl
  | watch _ hroom =>
    subst hroom
    exact h

/-! ### Runs -/

variable {roomId : Nat} {start' : Int}

theorem follows_start : (start roomId w b start' selectById).Follows (Table.start w b) where
  white := rfl
  black := rfl
  here uid hseat := by
    have hclient : (start roomId w b start' selectById).clients (.player uid) = _ := if_pos hseat
    rw [hclient]
    exact ⟨fun _ => rfl, fun _ => decide_eq_true hseat⟩
  isOver := ⟨fun h => (by cases h), fun h => by cases h⟩
  board p hgame := by
    obtain rfl := Option.some.inj hgame
    rfl
  turn p hgame := by
    obtain rfl := Option.some.inj hgame
    rfl
  begun p hgame := by
    obtain rfl := Option.some.inj hgame
    simp [start, Room.create, Room.addBlackUser, Room.addWhiteUser, Room.new, Turns.Position.empty]

theorem run_follows (hp : Players w b) (h : machine.Run (start roomId w b start' selectById) ts d) :
    (d.Sound w b ∧ d.Orderly ∧ d.room.NoFive) ∧
      ∃ t, Table.machine.Reaches (Table.start w b) (settlements (Machine.log ts)) t ∧ d.Follows t := by
  obtain ⟨hsound, horderly⟩ := run_orderly hp h
  have hbefore : ∀ us x vs, ts = us ++ x :: vs → x.before.Sound w b ∧ x.before.Orderly := fun us x vs heq =>
    run_orderly hp (heq ▸ h).split.1
  obtain ⟨hno, hfollows⟩ := h.invariant_along (C := fun _ x => x.before.Sound w b ∧ x.before.Orderly)
    (I := fun ts d => d.room.NoFive ∧ ∃ t, Table.machine.Reaches (Table.start w b) (settlements (Machine.log ts)) t ∧ d.Follows t)
    ⟨fun _ => Room.not_fiveInRow_empty, _, .refl, follows_start⟩ hbefore fun hi hs hbefore => by
      obtain ⟨hno, t, hreaches, hfollows⟩ := hi
      obtain ⟨hsound, horderly⟩ := hbefore
      obtain ⟨t', hreaches', hfollows'⟩ := follows_step hp hsound horderly hno hfollows hs
      refine ⟨noFive_step hp hsound.seated hno hs, t', ?_, hfollows'⟩
      rw [Machine.log_snoc, settlements_append]
      exact hreaches.trans hreaches'
  exact ⟨⟨hsound, horderly, hno⟩, hfollows⟩

/-- Whatever the pages send, and in whatever order it arrives, what the room has paid for is what some play at a table pays
    for by the rules, and the room shows the table: whose game is running, its stones, and whose turn it is. -/
theorem plays_by_rules (hp : Players w b) (h : machine.Run (start roomId w b start' selectById) ts d) :
    ∃ t, Table.machine.Reaches (Table.start w b) (settlements (Machine.log ts)) t ∧ d.Follows t := (run_follows hp h).2

/-- Black opens, and white goes away. -/
theorem plays_by_rules_left : ∃ (ts : List DuelTrans) (d : Duel) (t : Table), machine.Run (start 1 10 20 0 newcomer) ts d ∧
    wins (Machine.log ts) = [20] ∧
      Table.machine.Reaches (Table.start 10 20) (settlements (Machine.log ts)) t ∧ d.Follows t := by
  obtain ⟨ts, d, h, hwins⟩ := Machine.Run.exists_of_exec machine (start 1 10 20 0 newcomer)
    [.read (.player 20) 0 0, .act (.player 20) (.click 225 225), .serve 20 newcomer 0 0, .leave (.player 10), .exit 10]
    (fun ts _ => wins (Machine.log ts) = [20]) (by decide +kernel)
  obtain ⟨t, hreaches, hfollows⟩ := plays_by_rules ⟨by decide, by decide, by decide, by decide, by decide⟩ h
  exact ⟨ts, d, t, h, hwins, hreaches, hfollows⟩

/-! ### Stones by turns -/

/-- Black has every other stone of a game, and the first one. -/
theorem card_boardOf (p : Turns.Position Cell) : ((boardOf p).stones .black).card = (p.points.length + 1) / 2 ∧
    ((boardOf p).stones .white).card = p.points.length / 2 := by
  induction p using Turns.Position.induction with
  | empty => exact ⟨by rw [boardOf, Turns.Position.owner_empty]; simp [Board.stones, Turns.Position.empty],
      by rw [boardOf, Turns.Position.owner_empty]; simp [Board.stones, Turns.Position.empty]⟩
  | play p c h ih =>
    obtain ⟨hblack, hwhite⟩ := ih
    have hset : boardOf (p.play c h) = (boardOf p).set c (p.toMove stoneSides) := Turns.Position.owner_play h
    have hfree : boardOf p c = none := Turns.Position.owner_eq_none.mpr h
    have hlength : (p.play c h).points.length = p.points.length + 1 := by simp [Turns.Position.play]
    rw [hset, hlength]
    rcases Nat.mod_two_eq_zero_or_one p.points.length with hmod | hmod
    · have hcolor : p.toMove stoneSides = .black := if_pos hmod
      rw [hcolor, Board.card_stones_set hfree, Board.stones_set_ne hfree (by decide), hblack, hwhite]
      omega
    · have hcolor : p.toMove stoneSides = .white := if_neg (by omega)
      rw [hcolor, Board.card_stones_set hfree, Board.stones_set_ne hfree (by decide), hblack, hwhite]
      omega

/-- The stone that a request puts has the colour of the player to move. -/
theorem Orderly.seatOf_stone (h : d.Orderly) (hfit : Page.Fit d.room) (hseat : d.room.Seats uid)
    (hout : (d.clients (.player uid)).outbox = m :: rest) (hnames : (m.get "uid").asUInt64 = .ok uid)
    (hreq : d.room.handleRequest (d.env selectById now later) (.obj m) = .ok (r, calls)) (hfree : d.room.board c = none)
    (hset : r.board = d.room.board.set c color) :
    d.room.statu = .gameStart ∧ d.room.seatOf color = d.room.turnUid := by
  have hmoves : r.board ≠ d.room.board := hset ▸ Board.set_ne_self hfree
  have hstone : ∀ {uid' c' color'}, d.room.Places (d.env selectById now later) m uid' c' color' →
      r.board = d.room.board.set c' color' → d.room.statu = .gameStart ∧ d.room.seatOf color = d.room.turnUid := by
    intro uid' c' color' places hboard
    obtain ⟨-, rfl⟩ := Board.set_inj hfree places.free (hset.symm.trans hboard)
    obtain rfl := Except.ok.inj (hnames.symm.trans places.names)
    refine ⟨places.running, ?_⟩
    rw [← h.in_turn hout hseat places, places.color_eq]
    split
    · rename_i hwhite
      exact hwhite.symm
    · rename_i hwhite
      exact (hseat.resolve_left hwhite).symm
  obtain ⟨m', hm, hanswer⟩ := Room.handleRequest_answer hreq
  obtain rfl := Except.ok.inj hm
  cases hanswer with
  | refused | chatted | timeUp | walkover | claimed | invite => exact absurd rfl hmoves
  | drifted _ _ habsent => exact absurd rfl (habsent.ne_zero hfit.white hfit.black)
  | placed places => exact hstone places (Room.passTurn_board _)
  | won places => exact hstone places rfl
  | accept =>
    have hstone := congrFun hset c
    rw [Board.set_self] at hstone
    cases hstone

/-- The turns of a table that the room follows. -/
theorem Follows.alternates (h : d.Follows t) (hrun : d.room.statu = .gameStart) :
    (d.room.turnUid = d.room.blackId ∧ (d.room.board.stones .black).card = (d.room.board.stones .white).card) ∨
      (d.room.turnUid = d.room.whiteId ∧ (d.room.board.stones .black).card = (d.room.board.stones .white).card + 1) := by
  obtain ⟨p, hp⟩ := h.game_of_running hrun
  obtain ⟨hblack, hwhite⟩ := card_boardOf p
  rw [h.board p hp, hblack, hwhite, h.turn p hp]
  rcases Nat.mod_two_eq_zero_or_one p.points.length with hmod | hmod
  · have hcolor : p.toMove stoneSides = .black := if_pos hmod
    exact Or.inl ⟨by rw [hcolor]; exact h.black, by omega⟩
  · have hcolor : p.toMove stoneSides = .white := if_neg (by omega)
    exact Or.inr ⟨by rw [hcolor]; exact h.white, by omega⟩

/-- The server takes the first stone of a game from either player. Between shipped pages it is always black's, however late
    a message arrives: every stone has the colour of the player to move, and while a game runs black has as many stones as
    white, or one more. -/
theorem stones_alternate (hp : Players w b) (h : machine.Run (start roomId w b start' selectById) ts d) :
    (∀ x ∈ ts, ∀ c color, x.before.room.board c = none → x.after.room.board = x.before.room.board.set c color →
      x.before.room.seatOf color = x.before.room.turnUid ∧ (x.before.room.board = Board.empty → color = .black)) ∧
    (d.room.statu = .gameStart →
      (d.room.turnUid = d.room.blackId ∧ (d.room.board.stones .black).card = (d.room.board.stones .white).card) ∨
      (d.room.turnUid = d.room.whiteId ∧ (d.room.board.stones .black).card = (d.room.board.stones .white).card + 1)) := by
  constructor
  · intro x hx c color hfree hset
    obtain ⟨us, vs, rfl, hus, hs⟩ := h.split_mem hx
    obtain ⟨⟨hsound, horderly, -⟩, t, -, hfollows⟩ := run_follows hp hus
    have hfit := hp.fit hsound.seated
    have hstone : x.before.room.statu = .gameStart ∧ x.before.room.seatOf color = x.before.room.turnUid := by
      have hmoves : x.after.room.board ≠ x.before.room.board := hset ▸ Board.set_ne_self hfree
      generalize x.after = d' at hs hset hmoves
      generalize x.event = e at hs
      generalize x.out = calls at hs
      cases step_inv hs with
      | read | tick | act | leave | vanish | unwatch => exact absurd rfl hmoves
      | watch _ hroom =>
        subst hroom
        exact absurd rfl hmoves
      | @exit uid =>
        change (x.before.room.handleExit uid).1.board ≠ _ at hmoves
        rw [Room.handleExit_fst] at hmoves
        exact absurd rfl hmoves
      | @serve uid _ _ _ m rest _ _ hout hlive _ _ hreq =>
        obtain ⟨info, -, hself, hsends⟩ := hsound.sends uid m (hout ▸ List.mem_cons_self)
        have hnames : (m.get "uid").asUInt64 = .ok uid := by rw [hsends.get.2.1, hself, Json.asUInt64_uint]
        have hseat : x.before.room.Seats uid := (seats_iff hsound.seated uid).mpr (hsound.players uid (by simp [hlive]))
        exact horderly.seatOf_stone hfit hseat hout hnames hreq hfree hset
    refine ⟨hstone.2, fun hempty => ?_⟩
    rcases hfollows.alternates hstone.1 with ⟨hturn, -⟩ | ⟨-, hcount⟩
    · cases color with
      | black => rfl
      | white => exact absurd (hstone.2.trans hturn) hfit.ne
    · simp [hempty] at hcount
  · intro hrun
    obtain ⟨-, t, -, hfollows⟩ := run_follows hp h
    exact hfollows.alternates hrun

/-- White clicks before black, to no effect, and the stone that is placed is black's. -/
theorem stones_alternate_first : ∃ (ts : List DuelTrans) (d : Duel), machine.Run (start 1 10 20 0 newcomer) ts d ∧
    d.room.board ⟨7, 7⟩ = some .black ∧
      ((d.room.turnUid = d.room.blackId ∧ (d.room.board.stones .black).card = (d.room.board.stones .white).card) ∨
      (d.room.turnUid = d.room.whiteId ∧ (d.room.board.stones .black).card = (d.room.board.stones .white).card + 1)) := by
  obtain ⟨ts, d, h, hstone, hrun⟩ := Machine.Run.exists_of_exec machine (start 1 10 20 0 newcomer)
    [.read (.player 10) 0 0, .act (.player 10) (.click 0 0), .read (.player 20) 0 0, .act (.player 20) (.click 225 225),
      .serve 20 newcomer 0 0] (fun _ d => d.room.board ⟨7, 7⟩ = some .black ∧ d.room.statu = .gameStart) (by decide +kernel)
  exact ⟨ts, d, h, hstone, (stones_alternate ⟨by decide, by decide, by decide, by decide, by decide⟩ h).2 hrun⟩

end Duel
end FiveStones
