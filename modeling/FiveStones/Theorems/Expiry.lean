import FiveStones.Theorems.Lifetime

/-! Which timer takes a session away. -/

namespace FiveStones

namespace Sessions
variable {st st' : Sessions} {ssid k : Ssid} {uid : Uid} {ms : Int} {tp : TimerId}

/-- The timer that the session has the handle of. -/
def handle (st : Sessions) (ssid : Ssid) : Option TimerId := (st.sm.sessions ssid).bind Session.timer

/-- The session is one that has just been created or appended: it has no timer. -/
structure Begun (st : Sessions) (ssid : Ssid) : Prop where
  fresh : st.Fresh
  there : st.sm.sessions ssid ≠ none
  unarmed : ∀ tp, st.armed tp ssid = false

theorem begun_createSession (hfresh : st.Fresh) (hunarmed : ∀ tp, st.armed tp st.sm.nextSsid = false) :
    Begun { st with sm := st.sm.createSession uid .login } st.sm.nextSsid where
  fresh := hfresh
  there := by simp [SessionManager.createSession]
  unarmed := hunarmed

theorem handle_setSessionExpireTime_ne (hne : k ≠ ssid) : (st.setSessionExpireTime ssid ms).handle k = st.handle k := by
  cases hssp : st.sm.sessions ssid with
  | none => rw [setSessionExpireTime_none hssp]
  | some ssp =>
    rw [setSessionExpireTime_eq hssp]
    split <;> simp only [handle, SessionManager.setTimer_sessions, if_neg hne]

/-- A call to a session that is there leaves it armed with nothing but a timer of its own, if the timer that was
    waited for can still be cancelled. -/
theorem armed_after_call (hssp : st.sm.sessions ssid ≠ none) (hheld : ∀ tp, st.armed tp ssid = true → st.handle ssid = some tp)
    (hintime : ∀ tp, st.handle ssid = some tp → st.timers tp ≠ some ⟨ssid, .expired⟩)
    (h : (st.setSessionExpireTime ssid ms).armed tp ssid = true) :
    ms ≠ sessionForever ∧ tp = st.nextTimer ∧ (st.setSessionExpireTime ssid ms).nextTimer = st.nextTimer + 1 ∧
      (st.setSessionExpireTime ssid ms).handle ssid = some tp := by
  obtain ⟨ssp, hssp⟩ := Option.ne_none_iff_exists'.mp hssp
  have hhandle : st.handle ssid = ssp.timer := by rw [handle, hssp, Option.bind_some]
  have gone : ∀ {statu}, cancelled st.timers ssp.timer tp = some ⟨ssid, statu⟩ → statu ≠ .aborted → False := by
    intro statu ht hstatu
    obtain ⟨ht, hnot⟩ := cancelled_eq_some ht hstatu
    have hheld := hheld tp (armed_iff.mpr ⟨statu, ht, hstatu⟩)
    cases statu with
    | waiting => exact hnot ⟨hhandle ▸ hheld, rfl⟩
    | expired => exact hintime tp hheld ht
    | aborted => exact hstatu rfl
  rw [setSessionExpireTime_eq hssp] at h ⊢
  obtain ⟨statu, ht, hstatu⟩ := armed_iff.mp h
  split at ht
  · exact (gone ht hstatu).elim
  · rename_i hms
    rcases Dict.assign_eq_some.mp ht with ⟨rfl, -⟩ | ⟨-, ht⟩
    · refine ⟨hms, rfl, by rw [if_neg hms], ?_⟩
      rw [if_neg hms]
      simp only [handle, SessionManager.setTimer_sessions, ↓reduceIte, hssp, Option.map_some, Option.bind_some]
    · exact (gone ht hstatu).elim

end Sessions

namespace ExpiryTrans

/-- The session whose lifetime the step sets. -/
def calls (x : ExpiryTrans) : Option Ssid :=
  match x.event with
  | .set ssid _ => some ssid
  | _ => none

/-- The session is there before the step, and not after it. -/
def Removes (ssid : Ssid) (x : ExpiryTrans) : Prop :=
  (x.before.sm.sessions ssid).isSome = true ∧ (x.after.sm.sessions ssid).isNone = true

instance (ssid : Ssid) (x : ExpiryTrans) : Decidable (Removes ssid x) := inferInstanceAs (Decidable (_ ∧ _))

/-- The timer that the step arms. -/
def arms (x : ExpiryTrans) : Option TimerId :=
  if x.after.nextTimer = x.before.nextTimer then none else some x.before.nextTimer

/-- No lifetime is set while the timer that the session has the handle of has expired and its completion is queued. -/
def InTime (ssid : Ssid) (x : ExpiryTrans) : Prop :=
  calls x = some ssid → ∀ tp ∈ x.before.handle ssid, x.before.timers tp ≠ some ⟨ssid, .expired⟩

instance (ssid : Ssid) (x : ExpiryTrans) : Decidable (InTime ssid x) := inferInstanceAs (Decidable (_ = _ → _))

end ExpiryTrans

namespace Sessions
variable {st t t' : Sessions} {ts us : List ExpiryTrans} {e : ExpiryEvent} {out : List Empty} {ssid : Ssid} {ms : Int}
  {tp : TimerId}

/-- The most recent of the calls that set the lifetime of the session. -/
def lastCall (ssid : Ssid) (ts : List ExpiryTrans) : Option ExpiryTrans :=
  (ts.filter fun x => ExpiryTrans.calls x = some ssid).getLast?

/-- The most recent call was not for ever, and armed this timer. -/
def Newest (ssid : Ssid) (ts : List ExpiryTrans) (tp : TimerId) : Prop :=
  ∃ y ms, lastCall ssid ts = some y ∧ y.event = .set ssid ms ∧ ms ≠ sessionForever ∧ ExpiryTrans.arms y = some tp

/-- Whenever the session is taken away, it is by the timer of the most recent call. -/
def RemovedByNewest (ssid : Ssid) (ts : List ExpiryTrans) : Prop :=
  ∀ us x vs, ts = us ++ x :: vs → ExpiryTrans.Removes ssid x → ∃ tp, x.event = .complete tp ∧ Newest ssid us tp

theorem lastCall_snoc (ts : List ExpiryTrans) (x : ExpiryTrans) :
    lastCall ssid (ts ++ [x]) = if ExpiryTrans.calls x = some ssid then some x else lastCall ssid ts := by
  unfold lastCall
  rw [List.filter_append, List.filter_singleton]
  split <;> simp_all

theorem newest_snoc {x : ExpiryTrans} (hx : ExpiryTrans.calls x ≠ some ssid) : Newest ssid (ts ++ [x]) tp ↔ Newest ssid ts tp := by
  rw [Newest, lastCall_snoc, if_neg hx, Newest]

/-- Nothing would take the session away but the timer of the most recent call, whose handle the session has. -/
structure Governed (ssid : Ssid) (ts : List ExpiryTrans) (st : Sessions) : Prop where
  fresh : st.Fresh
  held : ∀ tp, st.armed tp ssid = true → st.handle ssid = some tp
  newest : ∀ tp, st.armed tp ssid = true → Newest ssid ts tp

theorem Begun.governed (h : st.Begun ssid) : Governed ssid [] st where
  fresh := h.fresh
  held tp harmed := by cases (h.unarmed tp).symm.trans harmed
  newest tp harmed := by cases (h.unarmed tp).symm.trans harmed

theorem handle_eq_none (h : t.sm.sessions ssid = none) : t.handle ssid = none := by
  rw [handle, h, Option.bind_none]

theorem Governed.call (h : Governed ssid ts t) {x : ExpiryTrans} (hx : x = ⟨t, .set ssid ms, t.setSessionExpireTime ssid ms, []⟩)
    (hintime : ExpiryTrans.InTime ssid x) : Governed ssid (ts ++ [x]) x.after := by
  have hcalls : ExpiryTrans.calls x = some ssid := by rw [hx, ExpiryTrans.calls]
  have hintime := hintime hcalls
  subst hx
  by_cases hssp : t.sm.sessions ssid = none
  · -- A session that is gone has no armed timer left, and the call does nothing.
    have hgone : ∀ tp, t.armed tp ssid = true → False := fun tp harmed => by
      cases (handle_eq_none hssp).symm.trans (h.held tp harmed)
    have hsame : t.setSessionExpireTime ssid ms = t := setSessionExpireTime_none hssp
    refine ⟨h.fresh.setSessionExpireTime, fun tp harmed => (hgone tp ?_).elim, fun tp harmed => (hgone tp ?_).elim⟩
    · exact hsame ▸ harmed
    · exact hsame ▸ harmed
  · refine ⟨h.fresh.setSessionExpireTime, fun tp harmed => ?_, fun tp harmed => ?_⟩
    · exact (armed_after_call hssp h.held hintime harmed).2.2.2
    · obtain ⟨hms, rfl, hnext, -⟩ := armed_after_call hssp h.held hintime harmed
      refine ⟨_, ms, by rw [lastCall_snoc, if_pos hcalls], rfl, hms, ?_⟩
      have hne : (t.setSessionExpireTime ssid ms).nextTimer ≠ t.nextTimer := by
        rw [hnext]
        exact Nat.succ_ne_self _
      exact if_neg hne

theorem Governed.step (h : Governed ssid ts t) (hs : expiryMachine.step t e = some (t', out))
    (hintime : ExpiryTrans.InTime ssid ⟨t, e, t', out⟩) : Governed ssid (ts ++ [⟨t, e, t', out⟩]) t' := by
  cases e with
  | set k ms =>
    obtain ⟨rfl, rfl⟩ := Prod.mk.inj (Option.some.inj hs)
    by_cases heq : k = ssid
    · subst heq
      exact h.call rfl hintime
    · have hcalls : ExpiryTrans.calls ⟨t, .set k ms, t.setSessionExpireTime k ms, []⟩ ≠ some ssid :=
        fun h => heq (Option.some.inj h)
      have hold : ∀ tp, (t.setSessionExpireTime k ms).armed tp ssid = true → t.armed tp ssid = true := by
        intro tp harmed
        rcases armed_setSessionExpireTime harmed with hold | ⟨hk, -⟩
        · exact hold
        · exact absurd hk.symm heq
      refine ⟨h.fresh.setSessionExpireTime, fun tp harmed => ?_, fun tp harmed => ?_⟩
      · rw [handle_setSessionExpireTime_ne (Ne.symm heq)]
        exact h.held tp (hold tp harmed)
      · exact (newest_snoc hcalls).mpr (h.newest tp (hold tp harmed))
  | expires tp =>
    obtain ⟨u, hu, heq⟩ := Option.map_eq_some_iff.mp hs
    obtain ⟨rfl, rfl⟩ := Prod.mk.inj heq
    have hcalls : ExpiryTrans.calls ⟨t, .expires tp, u, []⟩ ≠ some ssid := Option.some_ne_none _ |>.symm
    refine ⟨h.fresh.expires hu, fun tp' harmed => ?_, fun tp' harmed => ?_⟩
    · rw [handle, (expires_eq hu).2.1]
      exact h.held tp' (armed_expires hu ▸ harmed)
    · exact (newest_snoc hcalls).mpr (h.newest tp' (armed_expires hu ▸ harmed))
  | complete tp =>
    obtain ⟨u, hu, heq⟩ := Option.map_eq_some_iff.mp hs
    obtain ⟨rfl, rfl⟩ := Prod.mk.inj heq
    have hcalls : ExpiryTrans.calls ⟨t, .complete tp, u, []⟩ ≠ some ssid := Option.some_ne_none _ |>.symm
    refine ⟨h.fresh.complete hu, fun tp' harmed => ?_, fun tp' harmed => ?_⟩
    · obtain ⟨hne, harmed⟩ := (armed_complete hu).mp harmed
      rcases (complete_eq hu).2.2.2 with ⟨k, hexpired, hsm⟩ | hsm
      · -- The timer that completes is not the one that the session waits for, so another session goes.
        have hk : ssid ≠ k := by
          rintro rfl
          have hheld := h.held tp (armed_iff.mpr ⟨_, hexpired, by simp⟩)
          exact hne (Option.some.inj ((h.held tp' harmed).symm.trans hheld))
        rw [handle, hsm, removeSession_sessions, if_neg hk]
        exact h.held tp' harmed
      · rw [handle, hsm]
        exact h.held tp' harmed
    · exact (newest_snoc hcalls).mpr (h.newest tp' ((armed_complete hu).mp harmed).2)

/-- A session only goes with the completion of a timer that is armed to take it away. -/
theorem armed_of_removes (hs : expiryMachine.step t e = some (t', out)) (h : ExpiryTrans.Removes ssid ⟨t, e, t', out⟩) :
    ∃ tp, e = .complete tp ∧ t.armed tp ssid = true := by
  have kept : t'.userOf ssid = t.userOf ssid → False := fun hsame => by
    have hthere := congrArg Option.isNone hsame
    rw [userOf, userOf, Option.isNone_map, Option.isNone_map, h.2] at hthere
    cases (Option.isNone_eq_false_iff.mpr h.1).symm.trans hthere.symm
  cases e with
  | set k ms =>
    obtain ⟨rfl, rfl⟩ := Prod.mk.inj (Option.some.inj hs)
    exact (kept userOf_setSessionExpireTime).elim
  | expires tp =>
    obtain ⟨u, hu, heq⟩ := Option.map_eq_some_iff.mp hs
    obtain ⟨rfl, rfl⟩ := Prod.mk.inj heq
    exact (kept (by rw [userOf, (expires_eq hu).2.1, userOf])).elim
  | complete tp =>
    obtain ⟨u, hu, heq⟩ := Option.map_eq_some_iff.mp hs
    obtain ⟨rfl, rfl⟩ := Prod.mk.inj heq
    rcases (complete_eq hu).2.2.2 with ⟨k, hexpired, hsm⟩ | hsm
    · by_cases hk : ssid = k
      · subst hk
        exact ⟨tp, rfl, armed_iff.mpr ⟨_, hexpired, by simp⟩⟩
      · exact (kept (by rw [userOf, hsm, removeSession_sessions, if_neg hk, userOf])).elim
    · exact (kept (by rw [userOf, hsm, userOf])).elim

theorem run_governed (hnew : st.Begun ssid) (h : expiryMachine.Run st ts t) (hC : ∀ x ∈ ts, ExpiryTrans.InTime ssid x) :
    Governed ssid ts t :=
  h.invariant_along (C := fun _ x => ExpiryTrans.InTime ssid x) hnew.governed
    (fun us x vs heq => hC x (by rw [heq]; simp)) fun hi hs hx => hi.step hs hx

/-- If no lifetime of the session is set while its timer has expired and waits to complete, then only the timer of
    the most recent call takes the session away. -/
theorem removed_by_newest (hnew : st.Begun ssid) (h : expiryMachine.Run st ts t)
    (hC : ∀ x ∈ ts, ExpiryTrans.InTime ssid x) : RemovedByNewest ssid ts := by
  intro us x vs heq hremoves
  subst heq
  obtain ⟨hus, hs, -⟩ := h.split
  have hgoverned := run_governed hnew hus fun y hy => hC y (List.mem_append_left _ hy)
  obtain ⟨tp, hevent, harmed⟩ := armed_of_removes hs hremoves
  exact ⟨tp, hevent, hgoverned.newest tp harmed⟩

/-- The session that the server has created first. -/
def first : Sessions := { start false with sm := SessionManager.empty.createSession 1 .login }

theorem begun_first : first.Begun 1 := by
  have hfresh : (start false).Fresh := by
    intro tp t ht
    cases ht
  exact begun_createSession hfresh fun _ => rfl

/-- A session that is set again before its time is up, and goes with the second timer. -/
theorem removed_by_newest_again : ∃ us x, expiryMachine.Run first (us ++ [x]) x.after ∧ ExpiryTrans.Removes 1 x ∧
    ∃ tp, x.event = .complete tp ∧ Newest 1 us tp := by
  obtain ⟨us, x, h, -, hC, hremoves⟩ := Machine.Run.exists_step_of_exec expiryMachine first
    [.set 1 30000, .set 1 30000, .expires 1, .complete 0] (.complete 1)
    (fun us x => (∀ y ∈ us ++ [x], ExpiryTrans.InTime 1 y) ∧ ExpiryTrans.Removes 1 x) (by decide +kernel)
  exact ⟨us, x, h, hremoves, removed_by_newest begun_first h hC us x [] rfl hremoves⟩

/-- A session that is to stay forever is taken away by the timer that had expired when the call came. -/
theorem forever_removed : ¬∀ ssid st (ts : List ExpiryTrans) t, Begun st ssid → expiryMachine.Run st ts t →
    RemovedByNewest ssid ts := by
  intro hall
  obtain ⟨us, x, h, -, hcall, hremoves⟩ := Machine.Run.exists_step_of_exec expiryMachine first
    [.set 1 30000, .expires 0, .set 1 sessionForever] (.complete 0)
    (fun us x => (lastCall 1 us).map Machine.Trans.event = some (.set 1 sessionForever) ∧ ExpiryTrans.Removes 1 x)
    (by decide +kernel)
  obtain ⟨tp, -, y, ms, hlast, hset, hms, -⟩ := hall 1 first _ _ begun_first h us x [] rfl hremoves
  rw [hlast, Option.map_some, hset] at hcall
  exact hms (ExpiryEvent.set.inj (Option.some.inj hcall)).2

end Sessions
end FiveStones
