import FiveStones.RoomManager
import FiveStones.Theorems.Settlement

/-! The handshake for another game: who has to say what, and when, before the seats are swapped. -/

namespace FiveStones

namespace RoomTrans

/-- The request of the step asks for `optype`, in the name of `uid`. -/
def Names (x : RoomTrans) (optype : String) (uid : Uid) : Prop :=
  ∃ env req m, x.event = .request env req ∧ req.members = .ok m ∧ x.before.Asks m optype ∧ (m.get "uid").asUInt64 = .ok uid

/-- Both seats are in the room at the moment of the request. -/
def BothOnline (x : RoomTrans) : Prop :=
  ∃ env req, x.event = .request env req ∧ env.inGameRoom x.before.whiteId = true ∧ env.inGameRoom x.before.blackId = true

/-- A `rematch_invite` of `uid` that is answered with success. -/
def Invites (x : RoomTrans) (uid : Uid) : Prop :=
  x.Names "rematch_invite" uid ∧ ∃ resp, x.out = [.broadcast resp] ∧ resp.get "result" = .bool true

end RoomTrans

/-- The steps `us` end with `bs`, and the last game has ended right before these. -/
def SinceEnd (us bs : List RoomTrans) : Prop := ∃ as y, us = as ++ y :: bs ∧ y.Ends ∧ ∀ z ∈ bs, ¬z.Ends

/-- Among `bs` there is one successful invitation. It came from `inviter`, with both players there. -/
def OneInvite (bs : List RoomTrans) (inviter : Uid) : Prop :=
  ∃ cs y ds, bs = cs ++ y :: ds ∧ y.Invites inviter ∧ y.BothOnline ∧ ∀ z ∈ cs ++ ds, ∀ uid, ¬z.Invites uid

theorem SinceEnd.of_ends {x : RoomTrans} (us : List RoomTrans) (hx : x.Ends) : SinceEnd (us ++ [x]) [] :=
  ⟨us, x, rfl, hx, fun _ hz => absurd hz List.not_mem_nil⟩

theorem SinceEnd.snoc {us bs : List RoomTrans} {x : RoomTrans} (h : SinceEnd us bs) (hx : ¬x.Ends) :
    SinceEnd (us ++ [x]) (bs ++ [x]) := by
  obtain ⟨as, y, rfl, hy, hbs⟩ := h
  refine ⟨as, y, by rw [List.append_assoc, List.cons_append], hy, fun z hz => ?_⟩
  rcases List.mem_append.mp hz with hz | hz
  · exact hbs z hz
  · exact List.mem_singleton.mp hz ▸ hx

theorem OneInvite.snoc {bs : List RoomTrans} {inviter : Uid} {x : RoomTrans} (h : OneInvite bs inviter)
    (hx : ∀ uid, ¬x.Invites uid) : OneInvite (bs ++ [x]) inviter := by
  obtain ⟨cs, y, ds, rfl, hy, honline, hrest⟩ := h
  refine ⟨cs, y, ds ++ [x], by rw [List.append_assoc, List.cons_append], hy, honline, fun z hz => ?_⟩
  rw [← List.append_assoc] at hz
  rcases List.mem_append.mp hz with hz | hz
  · exact hrest z hz
  · exact List.mem_singleton.mp hz ▸ hx

namespace Room
variable {env : Env} {r r' : Room} {m : Members} {req : Json} {uid w b : Uid} {out : List Call} {e : RoomEvent}

theorem bothPlayersOnline_iff :
    r.bothPlayersOnline env = true ↔ env.inGameRoom r.whiteId = true ∧ env.inGameRoom r.blackId = true :=
  Bool.and_eq_true_iff

/-- The other seat than that of `inviter` is the one seat that is not `inviter`. -/
theorem opponentOf_of_seats (hne : r.whiteId ≠ r.blackId) {inviter : Uid} (hin : r.Seats inviter) (huid : r.Seats uid)
    (hother : uid ≠ inviter) : uid = r.opponentOf inviter := by
  rcases hin with rfl | rfl
  · rw [opponentOf_white]
    exact huid.resolve_left hother
  · rw [opponentOf_black hne]
    exact huid.resolve_right hother

/-! ### The state of the handshake -/

/-- What the steps since the last end of a game say about the pending invitation. -/
structure Handshake (w b : Uid) (us : List RoomTrans) (r : Room) : Prop where
  seated : Seated w b r
  running : r.statu = .gameStart → r.rematchInitiatorUid = 0
  ended : r.statu = .gameOver → ∃ bs, SinceEnd us bs ∧
    ((r.rematchInitiatorUid = 0 ∧ ∀ z ∈ bs, ∀ uid, ¬z.Invites uid) ∨
      (r.Seats r.rematchInitiatorUid ∧ OneInvite bs r.rematchInitiatorUid))

theorem handshake_create (roomId : Nat) (now : Int) : Handshake w b [] (create roomId w b now) :=
  ⟨seated_create roomId now, fun _ => rfl, fun h => by cases h⟩

/-- The answer to a request that is not an invitation, or is refused. -/
theorem not_invites {resp : Members} (hm : req.members = .ok m)
    (h : (∀ uid, ¬(Asks r m "rematch_invite" ∧ (m.get "uid").asUInt64 = .ok uid)) ∨ resp.get "result" = .bool false)
    (uid : Uid) : ¬RoomTrans.Invites ⟨r, .request env req, r', [.broadcast resp]⟩ uid := by
  rintro ⟨⟨env', req', m', he, hm', asks, huid⟩, resp', hout, hres⟩
  obtain ⟨rfl, rfl⟩ := RoomEvent.request.inj he
  obtain rfl := Except.ok.inj (hm.symm.trans hm')
  obtain rfl : resp = resp' := by simpa using hout
  rcases h with hno | hfalse
  · exact hno uid ⟨asks, huid⟩
  · rw [hfalse] at hres
    cases hres

namespace Handshake
variable {us : List RoomTrans}

/-- A step that neither begins nor ends a game, and is no invitation. -/
theorem idle (h : Handshake w b us r) (hseated : Seated w b r') (hstatu : r'.statu = r.statu)
    (hseats : ∀ uid, r'.Seats uid ↔ r.Seats uid) (hinit : r'.rematchInitiatorUid = r.rematchInitiatorUid)
    (hno : ∀ uid, ¬RoomTrans.Invites ⟨r, e, r', out⟩ uid) : Handshake w b (us ++ [⟨r, e, r', out⟩]) r' where
  seated := hseated
  running hrun := hinit.trans (h.running (hstatu ▸ hrun))
  ended hover := by
    obtain ⟨bs, hsince, hcase⟩ := h.ended (hstatu ▸ hover)
    refine ⟨bs ++ [⟨r, e, r', out⟩], hsince.snoc fun hends => ?_, ?_⟩
    · exact absurd (hends.1.symm.trans (hstatu.symm.trans hends.2)) (by decide)
    rw [hinit, hseats]
    rcases hcase with ⟨hzero, hnone⟩ | ⟨hseat, hone⟩
    · refine Or.inl ⟨hzero, fun z hz => ?_⟩
      rcases List.mem_append.mp hz with hz | hz
      · exact hnone z hz
      · exact List.mem_singleton.mp hz ▸ hno
    · exact Or.inr ⟨hseat, hone.snoc hno⟩

/-- A step that ends the game. -/
theorem ends (h : Handshake w b us r) (hseated : Seated w b r') (hrun : r.statu = .gameStart)
    (hover : r'.statu = .gameOver) (hinit : r'.rematchInitiatorUid = r.rematchInitiatorUid) :
    Handshake w b (us ++ [⟨r, e, r', out⟩]) r' where
  seated := hseated
  running hrun' := by
    rw [hover] at hrun'
    cases hrun'
  ended _ := ⟨[], .of_ends us ⟨hrun, hover⟩,
    Or.inl ⟨hinit.trans (h.running hrun), fun _ hz => absurd hz List.not_mem_nil⟩⟩

theorem answer (h : Handshake w b us r) (hw : w ≠ 0) (hb : b ≠ 0) (hm : req.members = .ok m)
    (hs : machine.step r (.request env req) = some (r', out)) (ha : Answer env r m r' out) :
    Handshake w b (us ++ [⟨r, .request env req, r', out⟩]) r' := by
  have hseated := h.seated.step hw hb hs
  cases ha with
  | refused hres => exact h.idle hseated rfl (fun _ => Iff.rfl) rfl (not_invites hm (Or.inr hres))
  | chatted asks =>
    exact h.idle hseated rfl (fun _ => Iff.rfl) rfl
      (not_invites hm (Or.inl fun _ hinvite => absurd (asks.unique hinvite.1) (by decide)))
  | timeUp hrun => exact h.ends hseated hrun rfl rfl
  | walkover admits | claimed admits => exact h.ends hseated admits.running rfl rfl
  | won places => exact h.ends hseated places.running rfl rfl
  | drifted _ _ habsent =>
    exact absurd rfl (habsent.ne_zero (h.seated.white_ne_zero hw hb) (h.seated.black_ne_zero hw hb))
  | placed places =>
    exact h.idle hseated (by simp) (fun _ => by simp only [Seats, passTurn_whiteId, passTurn_blackId])
      (by rw [passTurn_eq])
      (not_invites hm (Or.inl fun _ hinvite => absurd (places.asks.unique hinvite.1) (by decide)))
  | @invite uid resp asks huid hover hseat hinit honline _ hres =>
    refine ⟨hseated, fun hrun => absurd_statu hrun hover, fun _ => ?_⟩
    obtain ⟨bs, hsince, hcase⟩ := h.ended hover
    refine ⟨_, hsince.snoc fun hends => absurd_statu hends.1 hover, Or.inr ⟨hseat, ?_⟩⟩
    rcases hcase with ⟨-, hnone⟩ | ⟨hseat', -⟩
    · refine ⟨bs, _, [], rfl, ⟨⟨env, req, m, rfl, hm, asks, huid⟩, resp, rfl, hres⟩,
        ⟨env, req, rfl, bothPlayersOnline_iff.mp honline⟩, ?_⟩
      rwa [List.append_nil]
    · -- Nobody has invited before: an invitation that is pending holds a seat, and no seat is 0.
      rw [hinit] at hseat'
      rcases hseat' with hzero | hzero
      · exact absurd hzero.symm (h.seated.white_ne_zero hw hb)
      · exact absurd hzero.symm (h.seated.black_ne_zero hw hb)
  | accept => exact ⟨hseated, fun _ => rfl, fun hover => by cases hover⟩

theorem step (h : Handshake w b us r) (hw : w ≠ 0) (hb : b ≠ 0) (hs : machine.step r e = some (r', out)) :
    Handshake w b (us ++ [⟨r, e, r', out⟩]) r' := by
  rcases step_answer hs with ⟨env, req, m, rfl, hm, ha⟩ | ⟨uid, rfl, hr', -⟩
  · exact h.answer hw hb hm hs ha
  have hseated := h.seated.step hw hb hs
  rw [handleExit_fst] at hr'
  subst hr'
  cases hrun : r.statu with
  | gameStart => exact h.ends hseated hrun rfl rfl
  | gameOver =>
    refine h.idle hseated hrun.symm (fun _ => Iff.rfl) rfl fun uid' hinvites => ?_
    obtain ⟨⟨env, req, m, he, -⟩, -⟩ := hinvites
    cases he

end Handshake

/-! ### Runs -/

section Runs
variable {roomId : Nat} {now : Int} {ts : List RoomTrans}

theorem run_handshake (h : machine.Run (create roomId w b now) ts r) (hw : w ≠ 0) (hb : b ≠ 0) : Handshake w b ts r :=
  h.invariant_along (C := fun _ _ => True) (handshake_create roomId now) (fun _ _ _ _ => trivial)
    fun hi hs _ => hi.step hw hb hs

/-- A step that begins another game is an accept of a seat other than the one that has invited. -/
theorem accepted_by_other {x : RoomTrans} {us : List RoomTrans} (h : Handshake w b us x.before) (hne : w ≠ b)
    (hs : machine.step x.before x.event = some (x.after, x.out)) (hre : x.Restarts) :
    ∃ inviter bs, x.before.Seats inviter ∧ SinceEnd us bs ∧ OneInvite bs inviter ∧
      x.Names "rematch_accept" (x.before.opponentOf inviter) ∧ x.BothOnline := by
  obtain ⟨bs, hsince, hcase⟩ := h.ended hre.1
  obtain ⟨r, e, r', out⟩ := x
  have hs : machine.step r e = some (r', out) := hs
  rcases step_answer hs with ⟨env, req, m, rfl, hm, ha⟩ | ⟨uid, rfl, rfl, -⟩
  · cases ha with
    | refused | chatted => exact absurd_statu hre.2 hre.1
    | timeUp | walkover | claimed | won => cases hre.2
    | drifted admits => exact absurd_statu admits.running hre.1
    | placed places => exact absurd_statu places.running hre.1
    | invite _ _ hover => exact absurd_statu hre.2 hover
    | @accept uid asks huid _ hseat hinit hself honline =>
      obtain ⟨hin, hone⟩ := hcase.resolve_left fun hzero => hinit hzero.1
      have hother := opponentOf_of_seats (h.seated.seats_ne hne) hin hseat hself
      exact ⟨_, bs, hin, hsince, hone, ⟨env, req, m, rfl, hm, asks, hother ▸ huid⟩,
        ⟨env, req, rfl, bothPlayersOnline_iff.mp honline⟩⟩
  · have hrun := hre.2
    simp only [handleExit_fst] at hrun
    cases hrun

/-- While an invitation is pending, another one is refused. -/
theorem rematchInvite_pending (hpending : r.rematchInitiatorUid ≠ 0) (hm : req.members = .ok m)
    (asks : Asks r m "rematch_invite") (huid : (m.get "uid").asUInt64 = .ok uid) :
    ∃ resp, r.handleRequest env req = .ok (r, [.broadcast resp]) ∧ resp.get "result" = .bool false := by
  obtain ⟨⟨roomId, hroom, hid⟩, hop⟩ := asks
  simp only [handleRequest, rematchInvite, hm, hroom, hop, hid, huid, hpending, bind, Except.bind, pure, Except.pure,
    ne_eq, not_true_eq_false, not_false_eq_true, String.reduceEq, ↓reduceIte]
  split
  · exact ⟨_, rfl, refuse_result _ _⟩
  split
  · exact ⟨_, rfl, refuse_result _ _⟩
  · exact ⟨_, rfl, refuse_result _ _⟩

/-- Another game needs both players: an invitation is pending only after a game, from one of the seats; a game
    begins again only when the other seat accepts the one invitation since the last game, with both players there
    each time; and nobody can invite while an invitation is pending. -/
theorem rematch_needs_both (h : machine.Run (create roomId w b now) ts r) (hw : w ≠ 0) (hb : b ≠ 0) (hne : w ≠ b) :
    (r.rematchInitiatorUid ≠ 0 → r.statu = .gameOver ∧ r.Seats r.rematchInitiatorUid) ∧
      (∀ us x vs, ts = us ++ x :: vs → x.Restarts → ∃ inviter bs, x.before.Seats inviter ∧ SinceEnd us bs ∧
        OneInvite bs inviter ∧ x.Names "rematch_accept" (x.before.opponentOf inviter) ∧ x.BothOnline) ∧
      (r.rematchInitiatorUid ≠ 0 → ∀ env req m uid, req.members = .ok m → Asks r m "rematch_invite" →
        (m.get "uid").asUInt64 = .ok uid →
        ∃ resp, r.handleRequest env req = .ok (r, [.broadcast resp]) ∧ resp.get "result" = .bool false) := by
  have hshake := run_handshake h hw hb
  refine ⟨fun hpending => ?_, fun us x vs heq hre => ?_, fun hpending env req m uid hm asks huid => ?_⟩
  · cases hstatu : r.statu with
    | gameStart => exact absurd (hshake.running hstatu) hpending
    | gameOver =>
      obtain ⟨bs, -, hcase⟩ := hshake.ended hstatu
      exact ⟨rfl, (hcase.resolve_left fun hzero => hpending hzero.1).1⟩
  · subst heq
    obtain ⟨hus, hs, -⟩ := h.split
    exact accepted_by_other (run_handshake hus hw hb) hne hs hre
  · exact rematchInvite_pending hpending hm asks huid

/-- A message that only names its sender. -/
def ask (optype : String) (uid : Uid) : RoomEvent :=
  .request (.allPresent 0) (.obj [("room_id", .int 1), ("optype", .str optype), ("uid", .uint uid)])

/-- White leaves, and both play another game. -/
theorem rematch_needs_both_once : ∃ (ts : List RoomTrans) (r : Room), machine.Run (create 1 10 20 0) ts r ∧
    r.whiteId = 20 ∧ (∃ x ∈ ts, x.Restarts) ∧
    ∀ us x vs, ts = us ++ x :: vs → x.Restarts → ∃ inviter bs, x.before.Seats inviter ∧ SinceEnd us bs ∧
      OneInvite bs inviter ∧ x.Names "rematch_accept" (x.before.opponentOf inviter) ∧ x.BothOnline := by
  obtain ⟨ts, r, h, hseat, hre⟩ := Machine.Run.exists_of_exec machine (create 1 10 20 0)
    [.exit 10, ask "rematch_invite" 10, ask "rematch_accept" 20]
    (fun ts r => r.whiteId = 20 ∧ ∃ x ∈ ts, RoomTrans.Restarts x) (by decide +kernel)
  exact ⟨ts, r, h, hseat, hre, (rematch_needs_both h (by decide) (by decide) (by decide)).2.1⟩

end Runs
end Room
end FiveStones
