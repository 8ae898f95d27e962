import Mathlib.Data.List.Forall2
import FiveStones.Lib.Machine

/-! One machine against another: from related states, the runs of the one are matched by runs of the other, with
one step for the same event, or with several steps that put out the same. -/

namespace Machine
variable {σ τ ε ε' ω ω' : Type} {M : Machine σ ε ω} {N : Machine τ ε ω'}

/-- In related states, a step of `M` that meets `C` is matched by a step of `N` for the same event: the two steps
    are alike, and lead to related states again. -/
def Simulates (M : Machine σ ε ω) (N : Machine τ ε ω') (R : σ → τ → Prop) (Q : Trans σ ε ω → Trans τ ε ω' → Prop)
    (C : Trans σ ε ω → Prop) : Prop :=
  ∀ {s t e s' out}, R s t → M.step s e = some (s', out) → C ⟨s, e, s', out⟩ →
    ∃ t' out', N.step t e = some (t', out') ∧ R s' t' ∧ Q ⟨s, e, s', out⟩ ⟨t, e, t', out'⟩

namespace Simulates
variable {R : σ → τ → Prop} {Q : Trans σ ε ω → Trans τ ε ω' → Prop} {C : Trans σ ε ω → Prop}

theorem run (h : Simulates M N R Q C) {s s' : σ} {t : τ} {ts : List (Trans σ ε ω)} (hrun : M.Run s ts s') (hR : R s t)
    (hC : ∀ x ∈ ts, C x) : ∃ us t', N.Run t us t' ∧ R s' t' ∧ List.Forall₂ Q ts us := by
  induction hrun with
  | nil => exact ⟨[], t, .nil, hR, .nil⟩
  | @snoc ts u v e out _ hs ih =>
    obtain ⟨us, u', hus, hR', hQ⟩ := ih fun x hx => hC x (List.mem_append_left _ hx)
    have hlast := hC ⟨u, e, v, out⟩ (List.mem_append_right _ (List.mem_singleton_self _))
    obtain ⟨v', out', hs', hR'', hQ'⟩ := h hR' hs hlast
    exact ⟨_, v', hus.snoc hs', hR'', List.rel_append hQ (.cons hQ' .nil)⟩

end Simulates

/-- From `s` there is a run to `t` that puts out `out`. -/
def Reaches (M : Machine σ ε ω) (s : σ) (out : List ω) (t : σ) : Prop := ∃ ts, M.Run s ts t ∧ log ts = out

namespace Reaches
variable {s t u : σ} {e : ε} {out out' : List ω}

theorem refl : M.Reaches s [] s := ⟨[], .nil, rfl⟩

theorem cons (hs : M.step s e = some (t, out)) (h : M.Reaches t out' u) : M.Reaches s (out ++ out') u := by
  obtain ⟨ts, hrun, rfl⟩ := h
  exact ⟨_, .cons hs hrun, rfl⟩

theorem one (hs : M.step s e = some (t, out)) : M.Reaches s out t := by simpa using cons hs .refl

theorem trans (h : M.Reaches s out t) (h' : M.Reaches t out' u) : M.Reaches s (out ++ out') u := by
  obtain ⟨ts, hts, rfl⟩ := h
  obtain ⟨us, hus, rfl⟩ := h'
  exact ⟨_, hts.append hus, log_append ts us⟩

end Reaches

/-- A machine whose every step is a run of `N` that puts out the same has only runs that are runs of `N`. -/
theorem Run.refine {N : Machine τ ε' ω} {R : σ → τ → Prop}
    (hstep : ∀ {s t e s' out}, R s t → M.step s e = some (s', out) → ∃ t', N.Reaches t out t' ∧ R s' t')
    {s s' : σ} {t : τ} {ts : List (Trans σ ε ω)} (hrun : M.Run s ts s') (hR : R s t) :
    ∃ t', N.Reaches t (log ts) t' ∧ R s' t' := by
  induction hrun with
  | nil => exact ⟨t, .refl, hR⟩
  | @snoc ts u v e out _ hs ih =>
    obtain ⟨u', hu, hR'⟩ := ih
    obtain ⟨v', hv, hR''⟩ := hstep hR' hs
    exact ⟨v', log_snoc ts _ ▸ hu.trans hv, hR''⟩

/-- A component of a machine: where each step of `M` leaves the component as it is, or is a step of `N` for it, a run of
    `M` is a run of `N` for the component. -/
theorem Run.component {N : Machine τ ε' ω'} {R : σ → τ → Prop} {view : Trans σ ε ω → Option (ε' × List ω')}
    {Q : Trans τ ε' ω' → Prop}
    (hother : ∀ {s t e s' out}, R s t → M.step s e = some (s', out) → view ⟨s, e, s', out⟩ = none → R s' t)
    (hown : ∀ {s t e s' out d out'}, R s t → M.step s e = some (s', out) → view ⟨s, e, s', out⟩ = some (d, out') →
      ∃ t', N.step t d = some (t', out') ∧ R s' t' ∧ Q ⟨t, d, t', out'⟩)
    {s s' : σ} {t : τ} {ts : List (Trans σ ε ω)} (hrun : M.Run s ts s') (hR : R s t) :
    ∃ us t', N.Run t us t' ∧ R s' t' ∧ us.map (fun y => (y.event, y.out)) = ts.filterMap view ∧ ∀ y ∈ us, Q y := by
  induction hrun with
  | nil => exact ⟨[], t, .nil, hR, rfl, nofun⟩
  | @snoc ts u v e out _ hs ih =>
    obtain ⟨us, u', hus, hR', hmap, hQ⟩ := ih
    rw [List.filterMap_append]
    cases hview : view ⟨u, e, v, out⟩ with
    | none => exact ⟨us, u', hus, hother hR' hs hview, by simp [hmap, hview], hQ⟩
    | some x =>
      obtain ⟨d, out'⟩ := x
      obtain ⟨v', hs', hR'', hlast⟩ := hown hR' hs hview
      refine ⟨_, v', hus.snoc hs', hR'', by simp [hmap, hview], fun y hy => ?_⟩
      rcases List.mem_append.mp hy with hy | hy
      · exact hQ y hy
      · exact List.mem_singleton.mp hy ▸ hlast

end Machine
