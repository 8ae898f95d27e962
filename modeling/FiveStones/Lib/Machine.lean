import Mathlib.Data.List.Induction

/-! Machines that answer events, and their runs.

A machine takes one event at a time: it accepts it, with a next state and what it puts out, or it has
no step for it. Everything that a step reads from outside (a clock, another party's answer) is part of
the event, so a machine is a function, and "in any order" is "for every run". -/

/-- What a machine does with an event: the next state and what it puts out, or no step. -/
structure Machine (σ ε ω : Type) where
  step : σ → ε → Option (σ × List ω)

namespace Machine
variable {σ ε ω : Type} {M : Machine σ ε ω} {s t u : σ} {e : ε} {out : List ω}

/-- One step of a run, with the state before and after it. -/
structure Trans (σ ε ω : Type) where
  before : σ
  event : ε
  after : σ
  out : List ω

/-- `Run M s ts t`: from `s` the machine takes the steps `ts`, oldest first, and is then in `t`. -/
inductive Run (M : Machine σ ε ω) (s : σ) : List (Trans σ ε ω) → σ → Prop
  | nil : Run M s [] s
  | snoc {ts : List (Trans σ ε ω)} {t u : σ} {e : ε} {out : List ω} :
      Run M s ts t → M.step t e = some (u, out) → Run M s (ts ++ [⟨t, e, u, out⟩]) u

/-- What a list of steps put out, oldest first. -/
def log (ts : List (Trans σ ε ω)) : List ω := ts.flatMap Trans.out

@[simp] theorem log_nil : log ([] : List (Trans σ ε ω)) = [] := rfl

@[simp] theorem log_snoc (ts : List (Trans σ ε ω)) (x : Trans σ ε ω) : log (ts ++ [x]) = log ts ++ x.out := by
  simp [log]

theorem log_append (ts us : List (Trans σ ε ω)) : log (ts ++ us) = log ts ++ log us := List.flatMap_append

/-- The run that answers `events`, if the machine has a step for each. -/
def exec (M : Machine σ ε ω) (s : σ) : List ε → Option (List (Trans σ ε ω) × σ)
  | [] => some ([], s)
  | e :: events =>
    match M.step s e with
    | none => none
    | some (t, out) =>
      match M.exec t events with
      | none => none
      | some (ts, u) => some (⟨s, e, t, out⟩ :: ts, u)

namespace Run
variable {ts us : List (Trans σ ε ω)}

theorem append (h : Run M s ts t) (h' : Run M t us u) : Run M s (ts ++ us) u := by
  induction h' with
  | nil => simpa using h
  | @snoc us u v e out _ hs ih =>
    rw [← List.append_assoc]
    exact ih.snoc hs

theorem cons (hs : M.step s e = some (t, out)) (h : Run M t ts u) : Run M s (⟨s, e, t, out⟩ :: ts) u := by
  have one : Run M s ([] ++ [⟨s, e, t, out⟩]) t := Run.nil.snoc hs
  exact one.append h

theorem of_exec : ∀ {events : List ε} {s : σ} {ts : List (Trans σ ε ω)} {t : σ},
    M.exec s events = some (ts, t) → Run M s ts t
  | [], s, ts, t, h => by
    simp only [exec, Option.some.injEq, Prod.mk.injEq] at h
    obtain ⟨rfl, rfl⟩ := h
    exact .nil
  | e :: events, s, ts, t, h => by
    simp only [exec] at h
    split at h
    · cases h
    · rename_i u out hs
      split at h
      · cases h
      · rename_i us v hrest
        simp only [Option.some.injEq, Prod.mk.injEq] at h
        obtain ⟨rfl, rfl⟩ := h
        exact cons hs (of_exec hrest)

theorem exec_snoc {events : List ε} (h : M.exec s events = some (ts, t)) (hs : M.step t e = some (u, out)) :
    M.exec s (events ++ [e]) = some (ts ++ [⟨t, e, u, out⟩], u) := by
  induction events generalizing s ts with
  | nil =>
    simp only [exec, Option.some.injEq, Prod.mk.injEq] at h
    obtain ⟨rfl, rfl⟩ := h
    simp [exec, hs]
  | cons e₀ events ih =>
    simp only [exec] at h
    split at h
    · cases h
    · rename_i v out₀ hs₀
      split at h
      · cases h
      · rename_i us w hrest
        simp only [Option.some.injEq, Prod.mk.injEq] at h
        obtain ⟨rfl, rfl⟩ := h
        simp only [List.cons_append, exec, hs₀, ih hrest]

/-- A run is the one that its events give. -/
theorem exec_eq (h : Run M s ts t) : M.exec s (ts.map Trans.event) = some (ts, t) := by
  induction h with
  | nil => rfl
  | snoc _ hs ih => simpa using exec_snoc ih hs

theorem eq_of_nil (h : Run M s [] t) : t = s := (Prod.mk.inj (Option.some.inj h.exec_eq)).2.symm

/-- A run ends where it starts, or after one of its steps. -/
theorem eq_or_after (h : Run M s ts t) : t = s ∨ ∃ x ∈ ts, x.after = t := by
  cases h with
  | nil => exact Or.inl rfl
  | snoc _ hs => exact Or.inr ⟨_, List.mem_append_right _ (List.mem_singleton_self _), rfl⟩

/-- What holds at every position of a list holds wherever the list is cut. -/
theorem forall_split {α : Type} {C : List α → α → Prop} {ts : List α}
    (h : ∀ i, (hi : i < ts.length) → C (ts.take i) (ts.get ⟨i, hi⟩)) {us : List α} {x : α} {vs : List α}
    (heq : ts = us ++ x :: vs) : C us x := by
  subst heq
  simpa using h us.length (by simp)

/-- What holds wherever two lists are cut, the second behind the first, holds wherever they are cut together. -/
theorem along_append {α : Type} {C : List α → α → Prop} {ts us : List α} (hts : ∀ vs x ws, ts = vs ++ x :: ws → C vs x)
    (hus : ∀ vs x ws, us = vs ++ x :: ws → C (ts ++ vs) x) : ∀ vs x ws, ts ++ us = vs ++ x :: ws → C vs x := by
  intro vs x ws heq
  rcases List.append_eq_append_iff.mp heq with ⟨vs', rfl, hcut⟩ | ⟨vs', rfl, hcut⟩
  · exact hus vs' x ws hcut
  · cases vs' with
    | nil => simpa using hus [] x ws (by simpa using hcut.symm)
    | cons y vs' =>
      cases hcut
      exact hts vs x vs' rfl

theorem exec_events {events : List ε} (h : M.exec s events = some (ts, t)) : ts.map Trans.event = events := by
  induction events generalizing s ts with
  | nil =>
    simp only [exec, Option.some.injEq, Prod.mk.injEq] at h
    rw [← h.1, List.map_nil]
  | cons e events ih =>
    simp only [exec] at h
    split at h
    · cases h
    · split at h
      · cases h
      · rename_i us v hrest
        simp only [Option.some.injEq, Prod.mk.injEq] at h
        rw [← h.1, List.map_cons, ih (h.2 ▸ hrest)]

/-- A property of what `exec` gives, tested on it, holds of a run with these events. -/
theorem exists_of_exec_events (M : Machine σ ε ω) (s : σ) (events : List ε) (p : List (Trans σ ε ω) → σ → Prop)
    [∀ ts t, Decidable (p ts t)] (h : ((M.exec s events).any fun x => p x.1 x.2) = true) :
    ∃ ts t, Run M s ts t ∧ ts.map Trans.event = events ∧ p ts t := by
  cases hexec : M.exec s events with
  | none => simp [hexec] at h
  | some x => exact ⟨x.1, x.2, of_exec hexec, exec_events hexec, by simpa [hexec] using h⟩

theorem exists_of_exec (M : Machine σ ε ω) (s : σ) (events : List ε) (p : List (Trans σ ε ω) → σ → Prop)
    [∀ ts t, Decidable (p ts t)] (h : ((M.exec s events).any fun x => p x.1 x.2) = true) :
    ∃ ts t, Run M s ts t ∧ p ts t := by
  obtain ⟨ts, t, hrun, -, hp⟩ := exists_of_exec_events M s events p h
  exact ⟨ts, t, hrun, hp⟩

/-- A property of a last step, and of the steps before it, tested on what `exec` and `step` give. -/
theorem exists_step_of_exec (M : Machine σ ε ω) (s : σ) (events : List ε) (e : ε) (p : List (Trans σ ε ω) → Trans σ ε ω → Prop)
    [∀ us x, Decidable (p us x)]
    (h : ((M.exec s events).any fun x => (M.step x.2 e).any fun y => p x.1 ⟨x.2, e, y.1, y.2⟩) = true) :
    ∃ us x, Run M s (us ++ [x]) x.after ∧ x.event = e ∧ p us x := by
  cases hexec : M.exec s events with
  | none => simp [hexec] at h
  | some x =>
    cases hs : M.step x.2 e with
    | none => simp [hexec, hs] at h
    | some y => exact ⟨x.1, _, (of_exec hexec).snoc hs, rfl, by simpa [hexec, hs] using h⟩

/-- A property of the run with these events can be tested on what `exec` gives. -/
theorem forall_of_exec (h : Run M s ts t) (events : List ε) (p : List (Trans σ ε ω) → σ → Prop)
    [∀ ts t, Decidable (p ts t)] (hevents : ts.map Trans.event = events) (hp : ((M.exec s events).all fun x => p x.1 x.2) = true) :
    p ts t := by
  rw [← hevents, h.exec_eq] at hp
  simpa using hp

theorem snoc_inv {x : Trans σ ε ω} (h : Run M s (ts ++ [x]) t) :
    Run M s ts x.before ∧ M.step x.before x.event = some (x.after, x.out) ∧ t = x.after := by
  generalize hts : ts ++ [x] = ts' at h
  cases h with
  | nil => simp at hts
  | snoc h hs =>
    obtain ⟨rfl, rfl⟩ := List.append_singleton_inj.mp hts
    exact ⟨h, hs, rfl⟩

/-- The run before a step, the step, and the run after it. -/
theorem split {x : Trans σ ε ω} {vs : List (Trans σ ε ω)} (h : Run M s (us ++ x :: vs) t) :
    Run M s us x.before ∧ M.step x.before x.event = some (x.after, x.out) ∧ Run M x.after vs t := by
  induction vs using List.reverseRecOn generalizing t with
  | nil =>
    obtain ⟨hus, hs, rfl⟩ := h.snoc_inv
    exact ⟨hus, hs, .nil⟩
  | append_singleton vs y ih =>
    rw [← List.cons_append, ← List.append_assoc] at h
    obtain ⟨hrest, hs, rfl⟩ := h.snoc_inv
    obtain ⟨hus, hx, hvs⟩ := ih hrest
    exact ⟨hus, hx, hvs.snoc hs⟩

/-- A run through `x` reaches the state before it, and takes the step. -/
theorem split_mem (h : Run M s ts t) {x : Trans σ ε ω} (hx : x ∈ ts) :
    ∃ us vs, ts = us ++ x :: vs ∧ Run M s us x.before ∧ M.step x.before x.event = some (x.after, x.out) := by
  obtain ⟨us, vs, rfl⟩ := List.append_of_mem hx
  exact ⟨us, vs, rfl, h.split.1, h.split.2.1⟩

/-- The invariant rule: what holds at the start, and is kept by every step that meets `C`, holds at
    the end of a run whose steps all meet `C`. -/
theorem invariant_of {I : σ → Prop} {C : Trans σ ε ω → Prop} (h : Run M s ts t) (h0 : I s)
    (hC : ∀ x ∈ ts, C x)
    (hstep : ∀ {s e t out}, I s → M.step s e = some (t, out) → C ⟨s, e, t, out⟩ → I t) : I t := by
  induction h with
  | nil => exact h0
  | @snoc ts t u e out _ hs ih =>
    have hi := ih fun x hx => hC x (List.mem_append_left _ hx)
    exact hstep hi hs (hC _ (List.mem_append_right _ (List.mem_singleton_self _)))

theorem invariant {I : σ → Prop} (h : Run M s ts t) (h0 : I s)
    (hstep : ∀ {s e t out}, I s → M.step s e = some (t, out) → I t) : I t :=
  h.invariant_of (C := fun _ => True) h0 (fun _ _ => trivial) fun hi hs _ => hstep hi hs

/-- The invariant rule with the steps so far, which the invariant and the condition may look back on. -/
theorem invariant_along {I : List (Trans σ ε ω) → σ → Prop} {C : List (Trans σ ε ω) → Trans σ ε ω → Prop}
    (h : Run M s ts t) (h0 : I [] s) (hC : ∀ us x vs, ts = us ++ x :: vs → C us x)
    (hstep : ∀ {us t e u out}, I us t → M.step t e = some (u, out) → C us ⟨t, e, u, out⟩ →
      I (us ++ [⟨t, e, u, out⟩]) u) : I ts t := by
  induction h with
  | nil => exact h0
  | @snoc ts t u e out _ hs ih =>
    refine hstep (ih fun us x vs heq => hC us x (vs ++ [⟨t, e, u, out⟩]) ?_) hs (hC ts _ [] rfl)
    rw [heq, List.append_assoc, List.cons_append]

/-- Every step of a run whose steps all meet `C` is taken from a state where the invariant holds. -/
theorem before_of {I : σ → Prop} {C : Trans σ ε ω → Prop} (h : Run M s ts t) (h0 : I s)
    (hC : ∀ x ∈ ts, C x)
    (hstep : ∀ {s e t out}, I s → M.step s e = some (t, out) → C ⟨s, e, t, out⟩ → I t)
    {x : Trans σ ε ω} (hx : x ∈ ts) : I x.before ∧ M.step x.before x.event = some (x.after, x.out) := by
  obtain ⟨us, vs, rfl, hus, hs⟩ := h.split_mem hx
  exact ⟨hus.invariant_of h0 (fun y hy => hC y (List.mem_append_left _ hy)) hstep, hs⟩

theorem before {I : σ → Prop} (h : Run M s ts t) (h0 : I s)
    (hstep : ∀ {s e t out}, I s → M.step s e = some (t, out) → I t)
    {x : Trans σ ε ω} (hx : x ∈ ts) : I x.before ∧ M.step x.before x.event = some (x.after, x.out) :=
  h.before_of (C := fun _ => True) h0 (fun _ _ => trivial) (fun hi hs _ => hstep hi hs) hx

/-- Where each step of a kind makes `f` smaller, a run of such steps is no longer than `f` is at its start. -/
theorem length_le {C : ε → Prop} {f : σ → Nat} (h : Run M s ts t) (hC : ∀ x ∈ ts, C x.event)
    (hless : ∀ {s e t out}, C e → M.step s e = some (t, out) → f t < f s) : ts.length + f t ≤ f s := by
  induction h with
  | nil => simp
  | @snoc ts t u e out _ hs ih =>
    have hle := ih fun x hx => hC x (List.mem_append_left _ hx)
    have hlt := hless (hC _ (List.mem_append_right _ (List.mem_singleton_self _))) hs
    rw [List.length_append, List.length_singleton]
    omega

end Run
end Machine
