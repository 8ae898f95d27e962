import FiveStones.Theorems.Countdown

/-! The order in which a page sends: clicks and reports while it shows a game, offers when it shows that the game is
over. Messages of one game that the server handles in the next are offers at most, and so white's page never opens a
game. -/

namespace FiveStones

/-- A move, or a report that the time is up. -/
def Members.IsPlay (m : Members) : Prop :=
  (m.get "optype").asString = .ok "put_chess" ∨ (m.get "optype").asString = .ok "timeout"

/-- An invitation to another game, or that it is accepted. -/
def Members.IsOffer (m : Members) : Prop :=
  (m.get "optype").asString = .ok "rematch_invite" ∨ (m.get "optype").asString = .ok "rematch_accept"

theorem Members.IsPlay.not_offer {m : Members} (h : m.IsPlay) : ¬m.IsOffer := by
  unfold IsPlay at h
  unfold IsOffer
  rcases h with h | h <;> simp [h]

namespace Page
variable {p q : Page} {infos : List Members} {info m : Members} {b : Bool} {now : Rat} {room : RoomInfo} {act : Act}

/-- As the page reads on, `isOver` stays as it is once it is `b`. -/
def Keeps (b : Bool) (p : Page) (infos : List Members) : Prop :=
  ∀ pre pre', pre <+: pre' → pre' <+: infos → (p.catchUp pre).isOver = b → (p.catchUp pre').isOver = b

/-- A page on which white waits for the first stone. -/
def Waits (p : Page) : Prop := p.isOver = true ∨ (p.myTurn = false ∧ p.timingStarted = false)

/-- However far the page reads, white waits on it. -/
def KeepsWaiting (p : Page) (infos : List Members) : Prop := ∀ pre, pre <+: infos → (p.catchUp pre).Waits

theorem Same.isOver (h : Same p q) : q.isOver = p.isOver := by rw [h]

theorem Same.waits (h : Same p q) (hw : p.Waits) : q.Waits := by
  rw [h]
  exact hw

theorem catchUp_cons : p.catchUp (info :: infos) = (p.onMessage info 0).catchUp infos := rfl

theorem catchUp_read (pre : List Members) (t : Rat) :
    (p.catchUp (info :: pre)).Same ((p.onMessage info t).catchUp pre) := by
  rw [catchUp_cons]
  exact ((Same.refl p).onMessage).catchUp

namespace Keeps

theorem nil : Keeps b p [] := by
  intro pre pre' h h' hb
  obtain rfl := List.prefix_nil.mp h'
  obtain rfl := List.prefix_nil.mp h
  exact hb

theorem of_same (h : Keeps b p infos) (hs : Same p q) : Keeps b q infos := by
  intro pre pre' hpre hpre' hb
  rw [hs.catchUp.isOver] at hb ⊢
  exact h pre pre' hpre hpre' hb

theorem read (h : Keeps b p (info :: infos)) (t : Rat) : Keeps b (p.onMessage info t) infos := by
  intro pre pre' hpre hpre' hb
  rw [(catchUp_read pre t).isOver] at hb
  rw [(catchUp_read pre' t).isOver]
  exact h _ _ (List.cons_prefix_cons.mpr ⟨rfl, hpre⟩) (List.cons_prefix_cons.mpr ⟨rfl, hpre'⟩) hb

theorem of_now (h : Keeps b p infos) (hb : p.isOver = b) {pre : List Members} (hpre : pre <+: infos) : (p.catchUp pre).isOver = b :=
  h [] pre List.nil_prefix hpre hb

/-- One more message, after which `isOver` is `b`. -/
theorem snoc (h : Keeps b p infos) (hlast : (p.catchUp (infos ++ [info])).isOver = b) : Keeps b p (infos ++ [info]) := by
  intro pre pre' hpre hpre' hb
  rcases List.prefix_concat_iff.mp hpre' with rfl | hpre'
  · exact hlast
  · exact h pre pre' hpre hpre' hb

/-- One more message, with which `isOver` becomes `b`. -/
theorem turn {b' : Bool} (h : Keeps b' p infos) (hb : p.isOver = b') (hlast : (p.catchUp (infos ++ [info])).isOver = b)
    (hne : b' ≠ b) : Keeps b p (infos ++ [info]) := by
  intro pre pre' hpre hpre' hpreb
  rcases List.prefix_concat_iff.mp hpre' with rfl | hpre'
  · exact hlast
  · exact absurd ((h.of_now hb (hpre.trans hpre')).symm.trans hpreb) hne

end Keeps

namespace KeepsWaiting

theorem of_same (h : KeepsWaiting p infos) (hs : Same p q) : KeepsWaiting q infos := fun pre hpre =>
  hs.catchUp.waits (h pre hpre)

theorem read (h : KeepsWaiting p (info :: infos)) (t : Rat) : KeepsWaiting (p.onMessage info t) infos := fun pre hpre =>
  (catchUp_read pre t).waits (h _ (List.cons_prefix_cons.mpr ⟨rfl, hpre⟩))

theorem snoc (h : KeepsWaiting p infos) (hlast : (p.catchUp (infos ++ [info])).Waits) : KeepsWaiting p (infos ++ [info]) := by
  intro pre hpre
  rcases List.prefix_concat_iff.mp hpre with rfl | hpre
  · exact hlast
  · exact h pre hpre

end KeepsWaiting

/-! ### What a page sends, and when -/

/-- What has to be so on a page that sends the message. -/
structure Sending (p : Page) (m : Members) : Prop where
  play : m.IsPlay → p.isOver = false ∧ (p.myTurn = true ∨ p.timingStarted = true)
  offer : m.IsOffer → p.isOver = true

theorem Sending.of_same (h : p.Sending m) (hs : Same p q) : q.Sending m := by
  rw [hs]
  exact ⟨h.play, h.offer⟩

theorem sending_act (h : act.message p = some m) : p.Sending m := by
  cases act with
  | click x y =>
    simp only [Act.message, onClick] at h
    split at h
    · cases h
    split at h
    · cases h
    split at h
    · cases h
    rename_i hover
    split at h
    · cases h
    rename_i hturn
    split at h
    · cases h
    split at h
    · cases h
    obtain rfl := Option.some.inj h
    exact ⟨fun _ => ⟨by simpa using hover, Or.inl (by simpa using hturn)⟩, fun ho => absurd ho (Members.IsPlay.not_offer (Or.inl rfl))⟩
  | invite | accept =>
    simp only [Act.message, sendRematchInvite, sendRematchAccept, sendRematch] at h
    split at h
    · cases h
    split at h
    · cases h
    split at h
    · rename_i hover
      obtain rfl := Option.some.inj h
      refine ⟨fun hp => absurd ?_ hp.not_offer, fun _ => hover⟩
      first | exact Or.inl rfl | exact Or.inr rfl
    · cases h
  | chat text =>
    simp only [Act.message, sendChat] at h
    split at h
    · cases h
    split at h
    · cases h
    obtain ⟨room, -, rfl⟩ := Option.map_eq_some_iff.mp h
    refine ⟨fun hp => ?_, fun ho => ?_⟩
    · rcases hp with hp | hp <;> exact absurd (Except.ok.inj hp) (by decide)
    · rcases ho with ho | ho <;> exact absurd (Except.ok.inj ho) (by decide)

theorem sending_tick (h : (p.tickClock now).2 = some m) : p.Sending m := by
  rcases tickClock_cases (p := p) now with ⟨hnone, -⟩ | ⟨ht, hover, room, color, -, -, -, hmsg⟩
  · cases hnone.symm.trans h
  · obtain ⟨⟨which, rfl⟩, -⟩ := hmsg m h
    exact ⟨fun _ => ⟨hover, Or.inr ht⟩, fun ho => absurd ho (Members.IsPlay.not_offer (Or.inr rfl))⟩

end Page

/-! ### One player -/

namespace Client
variable {uid : Uid} {r r' : Room} {c c' : Client} {m info resp : Members} {rest : List Members} {p : Page}

/-- The connection of a player while a game runs. What is left of the game before are offers, and they come first; there
    is none once the player has a stone on the board. -/
structure Playing (uid : Uid) (r : Room) (c : Client) : Prop where
  order : c.outbox.Pairwise fun m m' => m.IsPlay → ¬m'.IsOffer
  stale : r.timingStarted = true → r.turnUid ≠ uid → ∀ m ∈ c.outbox, ¬m.IsOffer
  first : r.timingStarted = false → uid = r.whiteId → ∀ m ∈ c.outbox, ¬m.IsPlay
  keeps : c.shown = true → c.page.Keeps false c.inbox
  behind : c.shown = true → c.page.isOver = true → ∀ m ∈ c.outbox, ¬m.IsPlay
  played : c.shown = true → r.timingStarted = true → r.turnUid ≠ uid → c.page.isOver = false
  waits : c.shown = true → r.timingStarted = false → uid = r.whiteId → c.page.KeepsWaiting c.inbox

/-- The connection of a player when the game is over. What the player sent in the game comes before every offer. -/
structure Ended (uid : Uid) (r : Room) (c : Client) : Prop where
  order : c.outbox.Pairwise fun m m' => m.IsOffer → ¬m'.IsPlay
  offered : r.rematchInitiatorUid = uid → ∀ m ∈ c.outbox, ¬m.IsPlay
  keeps : c.shown = true → c.page.Keeps true c.inbox
  behind : c.shown = true → c.page.isOver = false → ∀ m ∈ c.outbox, ¬m.IsOffer
  waits : c.shown = true → r.rematchInitiatorUid = uid → c.page.isOver = true

theorem forall_snoc {P : Members → Prop} {ms : List Members} (h : ∀ m ∈ ms, P m) (hm : P m) : ∀ m' ∈ ms ++ [m], P m' := by
  intro m' hm'
  rcases List.mem_append.mp hm' with hm' | hm'
  · exact h m' hm'
  · rw [List.mem_singleton.mp hm']
    exact hm

theorem pairwise_snoc {R : Members → Members → Prop} {ms : List Members} (h : ms.Pairwise R) (hm : ∀ m' ∈ ms, R m' m) :
    (ms ++ [m]).Pairwise R :=
  List.pairwise_append.mpr ⟨h, List.pairwise_singleton _ _, fun m' hm' m'' hm'' => by
    rw [List.mem_singleton.mp hm'']
    exact hm m' hm'⟩

namespace Playing

theorem read (h : c.Playing uid r) (hinbox : c.inbox = info :: rest) (t : Rat) :
    { c with page := c.page.onMessage info t, inbox := rest }.Playing uid r where
  order := h.order
  stale := h.stale
  first := h.first
  keeps hshown := (hinbox ▸ h.keeps hshown).read t
  behind hshown hover := by
    refine h.behind hshown ?_
    by_contra hno
    have hnow := (hinbox ▸ h.keeps hshown).of_now (by simpa using hno) (List.cons_prefix_cons.mpr ⟨rfl, List.nil_prefix⟩)
    rw [← (Page.catchUp_read [] t).isOver] at hnow
    exact absurd hover (by simpa using hnow)
  played hshown hstarted hturn := by
    have hnow := (hinbox ▸ h.keeps hshown).of_now (h.played hshown hstarted hturn)
      (List.cons_prefix_cons.mpr ⟨rfl, List.nil_prefix⟩)
    rwa [← (Page.catchUp_read [] t).isOver] at hnow
  waits hshown hstarted huid := (hinbox ▸ h.waits hshown hstarted huid).read t

/-- The clocks of the page, or its connection. -/
theorem of_same (h : c.Playing uid r) (hpage : c.page.Same c'.page) (hshown : c'.shown = true → c.shown = true)
    (hinbox : c'.inbox = c.inbox) (houtbox : c'.outbox = c.outbox) : c'.Playing uid r where
  order := houtbox ▸ h.order
  stale := houtbox ▸ h.stale
  first := houtbox ▸ h.first
  keeps hs := hinbox ▸ (h.keeps (hshown hs)).of_same hpage
  behind hs hover := houtbox ▸ h.behind (hshown hs) (hpage.isOver ▸ hover)
  played hs hstarted hturn := hpage.isOver ▸ h.played (hshown hs) hstarted hturn
  waits hs hstarted huid := hinbox ▸ (h.waits (hshown hs) hstarted huid).of_same hpage

/-- The page sends. -/
theorem sent (h : c.Playing uid r) (hsending : c.page.Sending m) (hshown : c.shown = true) :
    { c with outbox := c.outbox ++ [m] }.Playing uid r where
  order := pairwise_snoc h.order fun m' hm' hplay hoffer => h.behind hshown (hsending.offer hoffer) m' hm' hplay
  stale hstarted hturn := forall_snoc (h.stale hstarted hturn) fun hoffer => by
    cases (hsending.offer hoffer).symm.trans (h.played hshown hstarted hturn)
  first hstarted huid := forall_snoc (h.first hstarted huid) fun hplay => by
    obtain ⟨hover, hready⟩ := hsending.play hplay
    rcases h.waits hshown hstarted huid [] List.nil_prefix with hover' | ⟨hturn, htiming⟩
    · cases hover.symm.trans hover'
    · rcases hready with hready | hready
      · cases hready.symm.trans hturn
      · cases hready.symm.trans htiming
  keeps := h.keeps
  behind hs hover := forall_snoc (h.behind hs hover) fun hplay => by cases (hsending.play hplay).1.symm.trans hover
  played := h.played
  waits := h.waits

end Playing

namespace Ended

theorem read (h : c.Ended uid r) (hinbox : c.inbox = info :: rest) (t : Rat) :
    { c with page := c.page.onMessage info t, inbox := rest }.Ended uid r where
  order := h.order
  offered := h.offered
  keeps hshown := (hinbox ▸ h.keeps hshown).read t
  behind hshown hover := by
    refine h.behind hshown ?_
    by_contra hno
    have hnow := (hinbox ▸ h.keeps hshown).of_now (by simpa using hno) (List.cons_prefix_cons.mpr ⟨rfl, List.nil_prefix⟩)
    rw [← (Page.catchUp_read [] t).isOver] at hnow
    exact absurd hover (by simpa using hnow)
  waits hshown huid := by
    have hnow := (hinbox ▸ h.keeps hshown).of_now (h.waits hshown huid) (List.cons_prefix_cons.mpr ⟨rfl, List.nil_prefix⟩)
    rwa [← (Page.catchUp_read [] t).isOver] at hnow

theorem of_same (h : c.Ended uid r) (hpage : c.page.Same c'.page) (hshown : c'.shown = true → c.shown = true)
    (hinbox : c'.inbox = c.inbox) (houtbox : c'.outbox = c.outbox) : c'.Ended uid r where
  order := houtbox ▸ h.order
  offered := houtbox ▸ h.offered
  keeps hs := hinbox ▸ (h.keeps (hshown hs)).of_same hpage
  behind hs hover := houtbox ▸ h.behind (hshown hs) (hpage.isOver ▸ hover)
  waits hs huid := hpage.isOver ▸ h.waits (hshown hs) huid

theorem sent (h : c.Ended uid r) (hsending : c.page.Sending m) (hshown : c.shown = true) :
    { c with outbox := c.outbox ++ [m] }.Ended uid r where
  order := pairwise_snoc h.order fun m' hm' hoffer hplay => h.behind hshown (hsending.play hplay).1 m' hm' hoffer
  offered huid := forall_snoc (h.offered huid) fun hplay => by
    cases (hsending.play hplay).1.symm.trans (h.waits hshown huid)
  keeps := h.keeps
  behind hs hover := forall_snoc (h.behind hs hover) fun hoffer => by cases (hsending.offer hoffer).symm.trans hover
  waits := h.waits

end Ended

/-! ### What the server tells -/

/-- A player in the middle of a game, with no offer on the way. -/
structure Busy (c : Client) : Prop where
  none : ∀ m ∈ c.outbox, ¬m.IsOffer
  keeps : c.shown = true → c.page.Keeps false c.inbox
  isOver : c.shown = true → c.page.isOver = false

/-- A player who knows that the game is over, with nothing but offers on the way. -/
structure Done (c : Client) : Prop where
  none : ∀ m ∈ c.outbox, ¬m.IsPlay
  keeps : c.shown = true → c.page.Keeps true c.inbox
  isOver : c.shown = true → c.page.isOver = true

/-- The page shows `r` when it has read everything, `resp` included. -/
def Shows (uid : Uid) (r : Room) (resp : Members) (c : Client) : Prop :=
  c.shown = true → (c.page.catchUp (c.inbox ++ [resp])).Mirrors (.player uid) r

namespace Shows

theorem over_false (h : c.Shows uid r resp) (hrun : r.statu = .gameStart) (hshown : c.shown = true) :
    (c.page.catchUp (c.inbox ++ [resp])).isOver = false := by
  rw [← Bool.not_eq_true, (h hshown).isOver, hrun]
  simp

theorem over_true (h : c.Shows uid r resp) (hover : r.statu = .gameOver) (hshown : c.shown = true) :
    (c.page.catchUp (c.inbox ++ [resp])).isOver = true := (h hshown).isOver.mpr hover

theorem waits (h : c.Shows uid r resp) (hrun : r.statu = .gameStart) (hfresh : r.timingStarted = false) (hturn : r.turnUid ≠ uid)
    (hshown : c.shown = true) : (c.page.catchUp (c.inbox ++ [resp])).Waits := by
  refine Or.inr ⟨?_, ?_⟩
  · rw [← Bool.not_eq_true, (h hshown).turn uid rfl hrun]
    exact hturn
  · rw [← Bool.not_eq_true]
    exact fun ht => by cases hfresh.symm.trans ((h hshown).active hrun ht).1

end Shows

theorem Playing.pop (h : c.Playing uid r) (hout : c.outbox = m :: rest) : { c with outbox := rest }.Playing uid r where
  order := (List.pairwise_cons.mp (hout ▸ h.order)).2
  stale hstarted hturn m' hm' := h.stale hstarted hturn m' (hout ▸ List.mem_cons_of_mem _ hm')
  first hstarted huid m' hm' := h.first hstarted huid m' (hout ▸ List.mem_cons_of_mem _ hm')
  keeps := h.keeps
  behind hs hover m' hm' := h.behind hs hover m' (hout ▸ List.mem_cons_of_mem _ hm')
  played := h.played
  waits := h.waits

theorem Ended.pop (h : c.Ended uid r) (hout : c.outbox = m :: rest) : { c with outbox := rest }.Ended uid r where
  order := (List.pairwise_cons.mp (hout ▸ h.order)).2
  offered huid m' hm' := h.offered huid m' (hout ▸ List.mem_cons_of_mem _ hm')
  keeps := h.keeps
  behind hs hover m' hm' := h.behind hs hover m' (hout ▸ List.mem_cons_of_mem _ hm')
  waits := h.waits

/-- The server handles a move or a report of the player. -/
theorem Playing.busy_of_play (h : c.Playing uid r) (hout : c.outbox = m :: rest) (hplay : m.IsPlay) :
    { c with outbox := rest }.Busy where
  none m' hm' := by
    have horder := h.order
    rw [hout] at horder
    exact (List.pairwise_cons.mp horder).1 m' hm' hplay
  keeps := h.keeps
  isOver hs := by
    rw [← Bool.not_eq_true]
    exact fun hover => h.behind hs hover m (hout ▸ List.mem_cons_self) hplay

theorem Playing.busy_of_turn (h : c.Playing uid r) (hstarted : r.timingStarted = true) (hturn : r.turnUid ≠ uid) : c.Busy :=
  ⟨h.stale hstarted hturn, h.keeps, fun hs => h.played hs hstarted hturn⟩

/-- The server handles an offer of the player. -/
theorem Ended.done_of_offer (h : c.Ended uid r) (hout : c.outbox = m :: rest) (hoffer : m.IsOffer) :
    { c with outbox := rest }.Done where
  none m' hm' := by
    have horder := h.order
    rw [hout] at horder
    exact (List.pairwise_cons.mp horder).1 m' hm' hoffer
  keeps := h.keeps
  isOver hs := by
    rw [← Bool.not_eq_false]
    exact fun hover => h.behind hs hover m (hout ▸ List.mem_cons_self) hoffer

theorem Ended.done_of_offered (h : c.Ended uid r) (huid : r.rematchInitiatorUid = uid) : c.Done :=
  ⟨h.offered huid, h.keeps, fun hs => h.waits hs huid⟩

/-- Nothing changes in the room. -/
theorem Playing.receive (h : c.Playing uid r) (hshows : c.Shows uid r resp) (hrun : r.statu = .gameStart)
    (hturn : r.timingStarted = false → r.turnUid = r.blackId) (hne : r.whiteId ≠ r.blackId) :
    (c.receive [resp]).Playing uid r where
  order := h.order
  stale := h.stale
  first := h.first
  keeps hs := (h.keeps hs).snoc (hshows.over_false hrun hs)
  behind := h.behind
  played := h.played
  waits hs hfresh huid := (h.waits hs hfresh huid).snoc
    (hshows.waits hrun hfresh (fun heq => hne (huid.symm.trans (heq.symm.trans (hturn hfresh)))) hs)

/-- Nothing changes in the room but who invites. -/
theorem Ended.receive (h : c.Ended uid r) (hshows : c.Shows uid r' resp) (hover : r'.statu = .gameOver)
    (hoffered : r'.rematchInitiatorUid = uid → r.rematchInitiatorUid = uid) : (c.receive [resp]).Ended uid r' where
  order := h.order
  offered huid := h.offered (hoffered huid)
  keeps hs := (h.keeps hs).snoc (hshows.over_true hover hs)
  behind := h.behind
  waits hs huid := h.waits hs (hoffered huid)

theorem Busy.playing (h : c.Busy) (hshows : c.Shows uid r resp) (hrun : r.statu = .gameStart) (hstarted : r.timingStarted = true) :
    (c.receive [resp]).Playing uid r where
  order := List.Pairwise.imp_of_mem (fun _ hm' _ _ => h.none _ hm') (List.pairwise_of_forall fun _ _ => trivial)
  stale _ _ := h.none
  first hfresh := by cases hfresh.symm.trans hstarted
  keeps hs := (h.keeps hs).snoc (hshows.over_false hrun hs)
  behind hs hover := by cases (h.isOver hs).symm.trans hover
  played hs _ _ := h.isOver hs
  waits _ hfresh := by cases hfresh.symm.trans hstarted

theorem Busy.ended (h : c.Busy) (hshows : c.Shows uid r resp) (hover : r.statu = .gameOver) (hinit : r.rematchInitiatorUid ≠ uid) :
    (c.receive [resp]).Ended uid r where
  order := List.Pairwise.imp_of_mem (fun hm _ _ hoffer => absurd hoffer (h.none _ hm)) (List.pairwise_of_forall fun _ _ => trivial)
  offered huid := absurd huid hinit
  keeps hs := (h.keeps hs).turn (h.isOver hs) (hshows.over_true hover hs) (by decide)
  behind _ _ := h.none
  waits _ huid := absurd huid hinit

theorem Done.ended (h : c.Done) (hshows : c.Shows uid r resp) (hover : r.statu = .gameOver) : (c.receive [resp]).Ended uid r where
  order := List.Pairwise.imp_of_mem (fun _ hm' _ _ => h.none _ hm') (List.pairwise_of_forall fun _ _ => trivial)
  offered _ := h.none
  keeps hs := (h.keeps hs).snoc (hshows.over_true hover hs)
  behind hs hno := by cases (h.isOver hs).symm.trans hno
  waits hs _ := h.isOver hs

/-- A new game, which black opens. -/
theorem Done.playing (h : c.Done) (hshows : c.Shows uid r resp) (hrun : r.statu = .gameStart) (hfresh : r.timingStarted = false)
    (hturn : r.turnUid = r.blackId) (hne : r.whiteId ≠ r.blackId) : (c.receive [resp]).Playing uid r where
  order := List.Pairwise.imp_of_mem (fun hm _ _ hplay => absurd hplay (h.none _ hm)) (List.pairwise_of_forall fun _ _ => trivial)
  stale hstarted := by cases hfresh.symm.trans hstarted
  first _ _ := h.none
  keeps hs := (h.keeps hs).turn (h.isOver hs) (hshows.over_false hrun hs) (by decide)
  behind _ _ := h.none
  played _ hstarted := by cases hfresh.symm.trans hstarted
  waits hs _ huid pre hpre := by
    rcases List.prefix_concat_iff.mp hpre with rfl | hpre
    · exact hshows.waits hrun hfresh (fun heq => hne (huid.symm.trans (heq.symm.trans hturn))) hs
    · exact Or.inl ((h.keeps hs).of_now (h.isOver hs) hpre)

/-- White's answer to the first stone may come after offers for the game before. -/
theorem Playing.opened (h : c.Playing uid r) (hfresh : r.timingStarted = false) (huid : uid = r.whiteId)
    (hshows : c.Shows uid r' resp) (hrun : r'.statu = .gameStart) (hstarted : r'.timingStarted = true) (hturn : r'.turnUid = uid) :
    (c.receive [resp]).Playing uid r' where
  order := h.order
  stale _ hno := absurd hturn hno
  first hfresh' := by cases hfresh'.symm.trans hstarted
  keeps hs := (h.keeps hs).snoc (hshows.over_false hrun hs)
  behind _ _ := h.first hfresh huid
  played _ _ hno := absurd hturn hno
  waits _ hfresh' := by cases hfresh'.symm.trans hstarted

end Client

/-! ### The room -/

namespace Room
variable {env : Env} {r r' : Room} {m resp : Members} {uid v : Uid} {c : Cell} {color : Chess}

/-- One stone is no five. -/
theorem not_fiveInRow_one (c : Cell) (color color' : Chess) : ¬(Board.empty.set c color).FiveInRow color' := by
  rintro ⟨row, col, d, hd, hall⟩
  have hat : ∀ i : Nat, i < 5 → row + i * d.1 = c.row ∧ col + i * d.2 = c.col := by
    intro i hi
    obtain ⟨c', hrow, hcol, hc'⟩ := Board.at?_eq_some.mp (hall i hi)
    by_cases hne : c' = c
    · exact hne ▸ ⟨hrow, hcol⟩
    · rw [Board.set_ne hne] at hc'
      cases hc'
  obtain ⟨hrow, hcol⟩ := hat 0 (by decide)
  obtain ⟨hrow', hcol'⟩ := hat 1 (by decide)
  simp only [Board.directions, List.mem_cons, List.not_mem_nil, or_false] at hd
  rcases hd with rfl | rfl | rfl | rfl <;> omega

/-- Before the first stone black is to move and the board is empty, and nobody offers another game while one runs. -/
structure Proper (r : Room) : Prop where
  offered : r.statu = .gameStart → r.rematchInitiatorUid = 0
  initiator : r.rematchInitiatorUid = 0 ∨ r.Seats r.rematchInitiatorUid
  black : r.statu = .gameStart → r.timingStarted = false → r.turnUid = r.blackId
  board : r.statu = .gameStart → r.timingStarted = false → r.board = Board.empty

theorem proper_create (roomId : Nat) (w b : Uid) (now : Int) : (create roomId w b now).Proper :=
  ⟨fun _ => rfl, Or.inl rfl, fun _ _ => rfl, fun _ _ => rfl⟩

theorem Proper.told (h : r.Proper) (htells : r.Tells env m r' resp) (hnames : (m.get "uid").asUInt64 = .ok uid) (hseat : r.Seats uid) :
    r'.Proper := by
  cases htells with
  | refused | chatted => exact h
  | timedOut | walkover | won => exact ⟨(nomatch ·), h.initiator, (nomatch ·), (nomatch ·)⟩
  | moved places =>
    refine ⟨fun _ => ?_, ?_, fun _ hfresh => ?_, fun _ hfresh => ?_⟩
    · rw [passTurn_eq]
      exact h.offered places.running
    · refine Or.inl ?_
      rw [passTurn_eq]
      exact h.offered places.running
    · simp at hfresh
    · simp at hfresh
  | invited _ huid hover =>
    obtain rfl := Except.ok.inj (hnames.symm.trans huid)
    exact ⟨fun hrun => absurd_statu hrun hover, Or.inr hseat, fun hrun => absurd_statu hrun hover, fun hrun => absurd_statu hrun hover⟩
  | accepted => exact ⟨fun _ => rfl, Or.inl rfl, fun _ _ => rfl, fun _ _ => rfl⟩

theorem Proper.exited (h : r.Proper) (uid : Uid) : (r.handleExit uid).1.Proper := by
  rw [handleExit_fst]
  exact ⟨(nomatch ·), h.initiator, (nomatch ·), (nomatch ·)⟩

/-- A game that a stone wins has begun before. -/
theorem Proper.started_of_won (h : r.Proper) (places : r.Places env m uid c color)
    (hwin : (r.withStone c color).checkWin c.row c.col color ≠ 0) : r.timingStarted = true := by
  cases hfresh : r.timingStarted with
  | true => rfl
  | false =>
    have hfive := fiveInRow_of_checkWin hwin
    rw [h.board places.running hfresh] at hfive
    exact absurd hfive (not_fiveInRow_one c color color)

end Room

namespace Client
variable {env : Env} {uid v : Uid} {r r' : Room} {c c₁ : Client} {m resp : Members}

structure Ordered (uid : Uid) (r : Room) (c : Client) : Prop where
  playing : r.statu = .gameStart → c.Playing uid r
  ended : r.statu = .gameOver → c.Ended uid r

theorem Playing.ordered (h : c.Playing uid r) (hrun : r.statu = .gameStart) : c.Ordered uid r :=
  ⟨fun _ => h, fun hover => Room.absurd_statu hrun hover⟩

theorem Ended.ordered (h : c.Ended uid r) (hover : r.statu = .gameOver) : c.Ordered uid r :=
  ⟨fun hrun => Room.absurd_statu hrun hover, fun _ => h⟩

/-- The connection of `v` when the server has taken `m` from that of `uid`. -/
inductive Pops (uid v : Uid) (m : Members) (c : Client) : Client → Prop
  | own {rest : List Members} : v = uid → c.outbox = m :: rest → Pops uid v m c { c with outbox := rest }
  | other : v ≠ uid → Pops uid v m c c

theorem Playing.pops (h : c.Playing v r) (hpops : c.Pops uid v m c₁) : c₁.Playing v r := by
  cases hpops with
  | own _ hout => exact h.pop hout
  | other => exact h

theorem Ended.pops (h : c.Ended v r) (hpops : c.Pops uid v m c₁) : c₁.Ended v r := by
  cases hpops with
  | own _ hout => exact h.pop hout
  | other => exact h

/-- After a move or a report of the player to move, both players are in the middle of the game. -/
theorem Playing.busy (h : c.Playing v r) (hpops : c.Pops uid v m c₁) (hplay : m.IsPlay) (hstarted : r.timingStarted = true)
    (hturn : uid = r.turnUid) : c₁.Busy := by
  cases hpops with
  | own _ hout => exact h.busy_of_play hout hplay
  | other hne => exact h.busy_of_turn hstarted fun heq => hne (heq.symm.trans hturn.symm)

/-- What the room tells keeps the order, as long as stones are put in turn and nobody is gone. -/
theorem Ordered.told (h : c.Ordered v r) (hfit : Page.Fit r) (hproper : r.Proper) (hproper' : r'.Proper)
    (htells : r.Tells env m r' resp) (hnames : (m.get "uid").asUInt64 = .ok uid) (huid : r.Seats uid) (hv : r.Seats v)
    (hturn : ∀ {c color}, r.Places env m uid c color → uid = r.turnUid) (hpresent : ∀ winner, ¬r.Absent env winner)
    (hpops : c.Pops uid v m c₁) (hshows : c₁.Shows v r' resp) : (c₁.receive [resp]).Ordered v r' := by
  have hzero : v ≠ 0 := by
    rcases hv with rfl | rfl
    · exact hfit.white
    · exact hfit.black
  cases htells with
  | refused | chatted =>
    exact
      { playing := fun hrun => ((h.playing hrun).pops hpops).receive hshows hrun (hproper.black hrun) hfit.ne
        ended := fun hover => ((h.ended hover).pops hpops).receive hshows hover fun heq => heq }
  | timedOut hrun hstarted hnames' hasks =>
    obtain rfl := Except.ok.inj (hnames.symm.trans hnames')
    have hbusy := (h.playing hrun).busy hpops (hasks.imp Room.Asks.optype Room.Asks.optype) hstarted rfl
    have hinit := hproper.offered hrun
    exact (hbusy.ended hshows rfl fun heq => hzero (heq.symm.trans hinit)).ordered rfl
  | @moved _ cell color _ places =>
    obtain rfl := Except.ok.inj (hnames.symm.trans places.names)
    have hrun := places.running
    have hrun' : ((r.withStone cell color).passTurn env uid (r.thinkingMs env)).statu = .gameStart := by simpa using hrun
    refine Playing.ordered ?_ hrun'
    cases hstarted : r.timingStarted with
    | true =>
      exact ((h.playing hrun).busy hpops (Or.inl places.asks.optype) hstarted (hturn places)).playing hshows hrun' (by simp)
    | false =>
      cases hpops with
      | own _ hout => exact ((h.playing hrun).busy_of_play hout (Or.inl places.asks.optype)).playing hshows hrun' (by simp)
      | other hne =>
        have hblack : uid = r.blackId := (hturn places).trans (hproper.black hrun hstarted)
        have hwhite : v = r.whiteId := hv.resolve_right fun heq => hne (heq.trans hblack.symm)
        refine (h.playing hrun).opened hstarted hwhite hshows hrun' (by simp) ?_
        rw [Room.passTurn_turnUid, hblack, hwhite]
        exact Room.opponentOf_black (r := r.withStone cell color) hfit.ne
  | walkover _ habsent => exact absurd habsent (hpresent _)
  | won places hwin hne =>
    obtain rfl := Except.ok.inj (hnames.symm.trans places.names)
    have hrun := places.running
    have hstarted := hproper.started_of_won places (hwin ▸ hne)
    have hbusy := (h.playing hrun).busy hpops (Or.inl places.asks.optype) hstarted (hturn places)
    exact (hbusy.ended hshows rfl fun heq => hzero (heq.symm.trans (hproper.offered hrun))).ordered rfl
  | invited asks hnames' hover =>
    obtain rfl := Except.ok.inj (hnames.symm.trans hnames')
    refine Ended.ordered ?_ hover
    cases hpops with
    | own _ hout => exact ((h.ended hover).done_of_offer hout (Or.inl asks.optype)).ended hshows hover
    | other hne => exact (h.ended hover).receive hshows hover fun heq => absurd heq.symm hne
  | accepted asks hnames' hover _ hinit hself =>
    obtain rfl := Except.ok.inj (hnames.symm.trans hnames')
    have hdone : c₁.Done := by
      cases hpops with
      | own _ hout => exact (h.ended hover).done_of_offer hout (Or.inr asks.optype)
      | other hne =>
        refine (h.ended hover).done_of_offered ?_
        rcases huid with rfl | rfl <;> rcases hv with rfl | rfl <;> rcases hproper.initiator with h0 | hw | hb <;> simp_all
    exact (hdone.playing hshows rfl rfl rfl hfit.ne.symm).ordered rfl

theorem Ordered.of_spectators {spectatorConns : Dict Uid ConnId} (h : c.Ordered uid r) :
    c.Ordered uid { r with spectatorConns } where
  playing hrun := { h.playing hrun with }
  ended hover := { h.ended hover with }

theorem Ordered.read {info : Members} {rest : List Members} (h : c.Ordered uid r) (hinbox : c.inbox = info :: rest) (t : Rat) :
    { c with page := c.page.onMessage info t, inbox := rest }.Ordered uid r :=
  ⟨fun hrun => (h.playing hrun).read hinbox t, fun hover => (h.ended hover).read hinbox t⟩

theorem Ordered.of_same {c' : Client} (h : c.Ordered uid r) (hpage : c.page.Same c'.page)
    (hshown : c'.shown = true → c.shown = true) (hinbox : c'.inbox = c.inbox) (houtbox : c'.outbox = c.outbox) :
    c'.Ordered uid r :=
  ⟨fun hrun => (h.playing hrun).of_same hpage hshown hinbox houtbox, fun hover => (h.ended hover).of_same hpage hshown hinbox houtbox⟩

/-- A page that is no longer shown sends nothing. -/
theorem Ordered.hidden {page : Page} (h : c.Ordered uid r) : { c with page, shown := false }.Ordered uid r where
  playing hrun := ⟨(h.playing hrun).order, (h.playing hrun).stale, (h.playing hrun).first, (nomatch ·), (nomatch ·), (nomatch ·),
    (nomatch ·)⟩
  ended hover := ⟨(h.ended hover).order, (h.ended hover).offered, (nomatch ·), (nomatch ·), (nomatch ·)⟩

theorem Ordered.send {msg : Option Members} (h : c.Ordered uid r) (hshown : c.shown = true)
    (hsending : ∀ m, msg = some m → c.page.Sending m) : (c.send msg).Ordered uid r := by
  cases msg with
  | none => exact h.of_same (.refl _) (fun hs => hs) rfl (by simp [Client.send])
  | some m =>
    by_cases hline : c.line = .live
    · have hsend : c.send (some m) = { c with outbox := c.outbox ++ [m] } := by simp [Client.send, hline]
      rw [hsend]
      exact ⟨fun hrun => (h.playing hrun).sent (hsending m rfl) hshown, fun hover => (h.ended hover).sent (hsending m rfl) hshown⟩
    · exact h.of_same (.refl _) (fun hs => hs) rfl (by simp [Client.send, hline])

end Client

namespace Duel
variable {d d' : Duel} {w b uid : Uid} {who : Party} {calls : List Call} {c' : Client} {ts : List DuelTrans}
  {selectById : Uid → Option Members} {now later : Int} {m : Members} {rest : List Members} {c : Cell} {color : Chess}

/-- Nobody is gone. -/
def Together (d : Duel) : Prop := ∀ uid, d.room.Seats uid → (d.clients (.player uid)).line = .live

theorem inGameRoom_env : (d.env selectById now later).inGameRoom uid = decide ((d.clients (.player uid)).line = .live) := by
  simp only [Env.inGameRoom, OnlineManager.inGameRoom, env]
  split <;> rename_i hline
  · rw [decide_eq_true hline]
    rfl
  · rw [decide_eq_false hline]
    rfl

theorem together_iff : d.room.bothPlayersOnline (d.env selectById now later) = true ↔ d.Together := by
  rw [Room.bothPlayersOnline, inGameRoom_env, inGameRoom_env, Bool.and_eq_true, decide_eq_true_eq, decide_eq_true_eq]
  constructor
  · rintro ⟨hwhite, hblack⟩ uid (rfl | rfl)
    · exact hwhite
    · exact hblack
  · exact fun h => ⟨h _ (Or.inl rfl), h _ (Or.inr rfl)⟩

/-- What keeps messages of one game out of the next. -/
structure Orderly (d : Duel) : Prop where
  proper : d.room.Proper
  ordered : d.Together → ∀ uid, d.room.Seats uid → (d.clients (.player uid)).Ordered uid d.room

/-- A player whose page puts a stone is to move. -/
theorem Orderly.in_turn (h : d.Orderly) (hout : (d.clients (.player uid)).outbox = m :: rest) (hseat : d.room.Seats uid)
    (places : d.room.Places (d.env selectById now later) m uid c color) : uid = d.room.turnUid := by
  cases hstarted : d.room.timingStarted with
  | true => exact places.turn hstarted
  | false =>
    have hplaying := (h.ordered (together_iff.mp places.online) uid hseat).playing places.running
    have hblack : uid = d.room.blackId := hseat.resolve_left fun hwhite =>
      hplaying.first hstarted hwhite m (hout ▸ List.mem_cons_self) (Or.inl places.asks.optype)
    rw [hblack, h.proper.black places.running hstarted]

/-- A client does something by itself. -/
theorem Orderly.put {t : Int} (h : d.Orderly) (hlive : c'.line = .live → (d.clients who).line = .live)
    (hordered : ∀ uid, who = .player uid → (d.clients who).Ordered uid d.room → c'.Ordered uid d.room) :
    { d.put who c' with clock := t }.Orderly where
  proper := h.proper
  ordered htogether uid hseat := by
    have hline : ∀ uid, d.room.Seats uid → ((d.put who c').clients (.player uid)).line = .live := htogether
    change ((d.put who c').clients (.player uid)).Ordered uid d.room
    have htogether' : d.Together := by
      intro uid' hseat'
      by_cases hwho : Party.player uid' = who
      · subst hwho
        have hl := hline uid' hseat'
        rw [put_self] at hl
        exact hlive hl
      · rw [← put_ne (c := c') hwho]
        exact hline uid' hseat'
    have hordered' := h.ordered htogether' uid hseat
    by_cases hwho : Party.player uid = who
    · subst hwho
      rw [put_self]
      exact hordered uid rfl hordered'
    · rw [put_ne hwho]
      exact hordered'

theorem Orderly.serve {room : Room} (hp : Players w b) (hsound : d.Sound w b) (h : d.Orderly)
    (hout : (d.clients (.player uid)).outbox = m :: rest) (hlive : (d.clients (.player uid)).line = .live)
    (hreq : d.room.handleRequest (d.env selectById now later) (.obj m) = .ok (room, calls))
    (hsound' : ({ d.put (.player uid) { d.clients (.player uid) with outbox := rest } with room, clock := later }.announce
      calls).Sound w b) :
    ({ d.put (.player uid) { d.clients (.player uid) with outbox := rest } with room, clock := later }.announce calls).Orderly := by
  have hfit := hp.fit hsound.seated
  obtain ⟨info, -, huid, hsends⟩ := hsound.sends uid m (hout ▸ List.mem_cons_self)
  obtain ⟨-, hnames, hwinner, hop⟩ := hsends.get
  obtain ⟨resp, hcalls, htells⟩ := Room.handleRequest_tells hfit.white hfit.black hwinner hop hreq
  have hseat : d.room.Seats uid := (seats_iff hsound.seated uid).mpr (hsound.players uid (by simp [hlive]))
  have hnames : (m.get "uid").asUInt64 = .ok uid := by rw [hnames, huid, Json.asUInt64_uint]
  have hproper := h.proper.told htells hnames hseat
  have haround : Around (d.put (.player uid) { d.clients (.player uid) with outbox := rest }).room room := around_tells htells
  refine ⟨hproper, fun htogether v hv => ?_⟩
  have hline : ∀ v, ((d.put (.player uid) { d.clients (.player uid) with outbox := rest }).clients (.player v)).line =
      (d.clients (.player v)).line := by
    intro v
    by_cases hne : v = uid
    · rw [hne, put_self]
    · rw [put_ne (by simpa using hne)]
  have htogether' : d.Together := by
    intro v hv
    rw [← hline v, ← announce_line (t := later) haround hcalls (.player v)]
    exact htogether v ((haround.seats v).mpr hv)
  have hv' : d.room.Seats v := (haround.seats v).mp hv
  have hpops : (d.clients (.player v)).Pops uid v m
      ((d.put (.player uid) { d.clients (.player uid) with outbox := rest }).clients (.player v)) := by
    by_cases hne : v = uid
    · subst hne
      rw [put_self]
      exact .own rfl hout
    · rw [put_ne (by simpa using hne)]
      exact .other hne
  have hhears : (d.put (.player uid) { d.clients (.player uid) with outbox := rest }).hears (.player v) = true := by
    simp only [hears, hline v, htogether' v hv', decide_true, Bool.true_and, decide_eq_true_eq]
    exact hv'
  have hclient := announce_client (t := later) haround hcalls (.player v)
  rw [if_pos hhears] at hclient
  rw [hclient]
  refine (h.ordered htogether' v hv').told hfit h.proper hproper htells hnames hseat hv' (fun places => h.in_turn hout hseat places)
    (fun winner habsent => ?_) hpops fun hshown => ?_
  · have honline : d.room.bothPlayersOnline (d.env selectById now later) = true := together_iff.mpr htogether'
    cases habsent.not_online.symm.trans honline
  · have hhears' := htogether v hv
    have hshows := hsound'.shows (.player v) (by simp [hears, hhears', hv])
    rw [hclient] at hshows
    exact hshows hshown

/-- A spectator comes or goes. -/
theorem Orderly.of_watcher {spectatorConns : Dict Uid ConnId} {t : Int} (h : d.Orderly) :
    { d.put (.watcher uid) c' with room := { d.room with spectatorConns }, clock := t }.Orderly where
  proper := { h.proper with }
  ordered htogether v hv := by
    have hclient : ∀ v, (d.put (.watcher uid) c').clients (.player v) = d.clients (.player v) := fun v => put_ne (by simp)
    have htogether' : d.Together := fun v hv => by
      rw [← hclient v]
      exact htogether v hv
    change ((d.put (.watcher uid) c').clients (.player v)).Ordered v _
    rw [hclient v]
    exact (h.ordered htogether' v hv).of_spectators

theorem Orderly.step {e : DuelEvent} (hp : Players w b) (hsound : d.Sound w b) (h : d.Orderly)
    (hs : machine.step d e = some (d', calls)) : d'.Orderly := by
  have hsound' := hsound.step hp hs
  cases step_inv hs with
  | read hinbox =>
    refine h.put (fun hline => hline) fun uid hwho hordered => ?_
    subst hwho
    exact hordered.read hinbox _
  | @tick who _ perf hshown =>
    refine h.put (fun hline => hline) fun uid hwho hordered => ?_
    subst hwho
    have hsame := Page.tickClock_same (p := (d.clients (.player uid)).page) perf
    refine Client.Ordered.send (hordered.of_same hsame (fun hs => hs) rfl rfl) hshown fun m hm => ?_
    exact (Page.sending_tick hm).of_same hsame
  | act hshown =>
    refine h.put (t := d.clock) (fun hline => hline) fun uid hwho hordered => ?_
    subst hwho
    exact hordered.send hshown fun m hm => Page.sending_act hm
  | serve hout hlive _ _ hreq => exact h.serve hp hsound hout hlive hreq hsound'
  | leave =>
    refine h.put (t := d.clock) (fun hline => hline) fun uid hwho hordered => ?_
    subst hwho
    exact hordered.hidden
  | vanish =>
    exact h.put (t := d.clock) (fun hline => by cases hline) fun uid hwho hordered =>
      hordered.of_same (.refl _) (fun hs => hs) rfl rfl
  | @exit uid hline =>
    refine ⟨h.proper.exited uid, fun htogether => ?_⟩
    exfalso
    have hseat : d.room.Seats uid := by
      refine (seats_iff hsound.seated uid).mpr (hsound.players uid ?_)
      rcases hline with hline | hline <;> simp [hline]
    obtain ⟨resp, hcalls, -⟩ := Page.told_exit (hp.fit hsound.seated) uid
    have haround := around_exit (d.put (.player uid) { d.clients (.player uid) with line := .closed }).room uid
    have hgone := announce_line (t := d.clock) haround hcalls (.player uid)
    rw [put_self] at hgone
    cases hgone.symm.trans (htogether uid ((haround.seats uid).mpr hseat))
  | watch _ hroom =>
    subst hroom
    exact h.of_watcher
  | unwatch => exact h.of_watcher

/-! ### Runs -/

variable {roomId : Nat} {start' : Int}

theorem orderly_start (hp : Players w b) : (start roomId w b start' selectById).Orderly := by
  refine ⟨Room.proper_create roomId w b start', fun _ uid hseat => Client.Playing.ordered ?_ rfl⟩
  have hseat' : (Room.create roomId w b start').Seats uid := hseat
  have hclient : (start roomId w b start' selectById).clients (.player uid) = Client.receive ⟨.opened false, true, .live, [], []⟩
      [(Room.create roomId w b start').readyFor ⟨.empty, fun _ => true, selectById, start', start'⟩ uid] := if_pos hseat'
  rw [hclient]
  have huid := (seats_iff (Room.seated_create roomId start') uid).mp hseat'
  refine Client.Playing.receive ?_ (fun _ => mirrors_entered hp _ huid 0) rfl (fun _ => rfl) hp.ne
  exact
    { order := .nil
      stale := fun _ _ _ h => by cases h
      first := fun _ _ _ h => by cases h
      keeps := fun _ => .nil
      behind := fun _ _ _ h => by cases h
      played := fun _ _ _ => rfl
      waits := fun _ _ _ pre hpre => by
        obtain rfl := List.prefix_nil.mp hpre
        exact Or.inr ⟨rfl, rfl⟩ }

theorem run_orderly (hp : Players w b) (h : machine.Run (start roomId w b start' selectById) ts d) : d.Sound w b ∧ d.Orderly :=
  h.invariant (I := fun d => d.Sound w b ∧ d.Orderly) ⟨sound_start hp, orderly_start hp⟩
    fun hi hs => ⟨hi.1.step hp hs, hi.2.step hp hi.1 hs⟩

end Duel
end FiveStones
