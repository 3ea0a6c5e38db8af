import Mathlib.Data.List.Basic

/-! Runs of a machine whose next state is determined by the current state and
one event. Every choice of the environment is part of the event. A missing
successor means that the event cannot be completed in that state, so a run
ends there and nothing is claimed about what would come after it. -/
namespace Transition

universe u v w

variable {State : Type u} {Event : Type v} {step : State → Event → Option State}

/-- The state after a whole sequence of events, when each of them completes. -/
def run (step : State → Event → Option State) : State → List Event → Option State
  | s, [] => some s
  | s, e :: es => (step s e).bind fun s' => run step s' es

/-- `P` holds in the current state and in every state the sequence reaches,
up to its end or to the first event that does not complete. -/
def Always (step : State → Event → Option State) (P : State → Prop) : State → List Event → Prop
  | s, [] => P s
  | s, e :: es => P s ∧ ∀ s', step s e = some s' → Always step P s' es

/-- The events of another machine that the events of a run stand for, each of
them chosen in the state before it. -/
def translated (step : State → Event → Option State) {Event' : Type w} (f : State → Event → Event') :
    State → List Event → List Event'
  | _, [] => []
  | s, e :: es => f s e :: (step s e).elim [] fun s' => translated step f s' es

/-- Every step that is taken meets the condition in the state before it. -/
def Throughout (step : State → Event → Option State) (C : State → Event → Prop) :
    State → List Event → Prop
  | _, [] => True
  | s, e :: es => ∀ s', step s e = some s' → C s e ∧ Throughout step C s' es

@[simp] theorem run_nil (s : State) : run step s [] = some s := rfl

@[simp] theorem run_cons (s : State) (e : Event) (es : List Event) :
    run step s (e :: es) = (step s e).bind fun s' => run step s' es := rfl

/-- A completed nonempty run has a completed first step. -/
theorem run_cons_eq_some {s s' : State} {e : Event} {es : List Event} :
    run step s (e :: es) = some s' ↔ ∃ t, step s e = some t ∧ run step t es = some s' := by
  rw [run_cons, Option.bind_eq_some_iff]

/-- What every step preserves holds at the end of every run. -/
theorem run_invariant {I : State → Prop}
    (hStep : ∀ s e s', I s → step s e = some s' → I s')
    {s s' : State} {es : List Event} (hs : I s) (hRun : run step s es = some s') : I s' := by
  induction es generalizing s with
  | nil =>
      cases hRun
      exact hs
  | cons e es ih =>
      obtain ⟨t, hFirst, hRest⟩ := run_cons_eq_some.mp hRun
      exact ih (hStep s e t hs hFirst) hRest

/-- `Always` speaks about exactly the states reached by the initial segments
of the sequence. -/
theorem always_iff_run {P : State → Prop} {s : State} {es : List Event} :
    Always step P s es ↔
      ∀ done rest s', es = done ++ rest → run step s done = some s' → P s' := by
  induction es generalizing s with
  | nil =>
      constructor
      · intro h done rest s' hSplit hRun
        obtain ⟨rfl, rfl⟩ := List.append_eq_nil_iff.mp hSplit.symm
        cases hRun
        exact h
      · intro h
        exact h [] [] s rfl rfl
  | cons e es ih =>
      constructor
      · rintro ⟨hHere, hLater⟩ done rest s' hSplit hRun
        cases done with
        | nil =>
            cases hRun
            exact hHere
        | cons d done =>
            obtain ⟨rfl, rfl⟩ := List.cons.inj hSplit
            obtain ⟨t, hFirst, hRest⟩ := run_cons_eq_some.mp hRun
            exact ih.mp (hLater t hFirst) done rest s' rfl hRest
      · intro h
        refine ⟨h [] (e :: es) s rfl rfl, fun t hFirst => ih.mpr ?_⟩
        rintro done rest s' rfl hRun
        exact h (e :: done) rest s' rfl (run_cons_eq_some.mpr ⟨t, hFirst, hRun⟩)

/-- In particular it holds at the end of a completed sequence. -/
theorem Always.of_run {P : State → Prop} {s s' : State} {es : List Event} (h : Always step P s es)
    (hRun : run step s es = some s') : P s' :=
  always_iff_run.mp h es [] s' (List.append_nil es).symm hRun

/-- An invariant of all steps holds at every point of every run. -/
theorem always_of_invariant {I : State → Prop}
    (hStep : ∀ s e s', I s → step s e = some s' → I s') {s : State} {es : List Event} (hs : I s) :
    Always step I s es :=
  always_iff_run.mpr fun _ _ _ _ hRun => run_invariant hStep hs hRun

/-- The same when each step has to meet a condition. -/
theorem always_of_throughout {I : State → Prop} {C : State → Event → Prop}
    (hStep : ∀ s e s', I s → C s e → step s e = some s' → I s') {s : State} {es : List Event} (hs : I s)
    (hC : Throughout step C s es) : Always step I s es := by
  induction es generalizing s with
  | nil => exact hs
  | cons e es ih =>
      refine ⟨hs, fun t hFirst => ?_⟩
      obtain ⟨hMeets, hRest⟩ := hC t hFirst
      exact ih (hStep s e t hs hMeets hFirst) hRest

theorem Always.mono {P Q : State → Prop} (h : ∀ s, P s → Q s) {s : State} {es : List Event}
    (hP : Always step P s es) : Always step Q s es :=
  always_iff_run.mpr fun done rest s' hSplit hRun => h s' (always_iff_run.mp hP done rest s' hSplit hRun)

/-- The exactness rule. Under an invariant of all steps, suppose that from a
state with the property a step leads to a state with the property exactly if
it meets the condition. Then a run has the property at every point exactly
if each of its steps meets the condition. -/
theorem always_iff_throughout {I P : State → Prop} {C : State → Event → Prop}
    (hInv : ∀ s e s', I s → step s e = some s' → I s')
    (hExact : ∀ s e s', I s → P s → step s e = some s' → (P s' ↔ C s e))
    {s : State} {es : List Event} (hI : I s) (hP : P s) :
    Always step P s es ↔ Throughout step C s es := by
  induction es generalizing s with
  | nil => simpa [Always, Throughout] using hP
  | cons e es ih =>
      constructor
      · rintro ⟨_, hLater⟩ t hFirst
        have hRest := hLater t hFirst
        have hNext : P t := by cases es with
          | nil => exact hRest
          | cons _ _ => exact hRest.1
        exact ⟨(hExact s e t hI hP hFirst).mp hNext, (ih (hInv s e t hI hFirst) hNext).mp hRest⟩
      · intro h
        refine ⟨hP, fun t hFirst => ?_⟩
        obtain ⟨hHere, hRest⟩ := h t hFirst
        have hNext : P t := (hExact s e t hI hP hFirst).mpr hHere
        exact (ih (hInv s e t hI hFirst) hNext).mpr hRest

/-- Two properties that agree under an invariant hold in the same runs. The
invariant may need the property and the condition of the run to be preserved. -/
theorem always_iff_always {I P Q : State → Prop} {C : State → Event → Prop}
    (hInv : ∀ s e s', I s → P s → C s e → step s e = some s' → I s')
    (hIff : ∀ s, I s → (P s ↔ Q s)) {s : State} {es : List Event} (hI : I s)
    (hC : Throughout step C s es) : Always step P s es ↔ Always step Q s es := by
  induction es generalizing s with
  | nil => exact hIff s hI
  | cons e es ih =>
      constructor
      · rintro ⟨hHere, hLater⟩
        refine ⟨(hIff s hI).mp hHere, fun t hFirst => ?_⟩
        obtain ⟨hMeets, hRest⟩ := hC t hFirst
        exact (ih (hInv s e t hI hHere hMeets hFirst) hRest).mp (hLater t hFirst)
      · rintro ⟨hHere, hLater⟩
        have hP := (hIff s hI).mpr hHere
        refine ⟨hP, fun t hFirst => ?_⟩
        obtain ⟨hMeets, hRest⟩ := hC t hFirst
        exact (ih (hInv s e t hI hP hMeets hFirst) hRest).mpr (hLater t hFirst)

theorem Throughout.mono {C D : State → Event → Prop} (h : ∀ s e, C s e → D s e) {s : State}
    {es : List Event} (hC : Throughout step C s es) : Throughout step D s es := by
  induction es generalizing s with
  | nil => trivial
  | cons e es ih => exact fun t hFirst => ⟨h s e (hC t hFirst).1, ih (hC t hFirst).2⟩

/-- Events that meet the condition in every state. -/
theorem throughout_of_forall {C : State → Event → Prop} {s : State} {es : List Event}
    (h : ∀ e ∈ es, ∀ s, C s e) : Throughout step C s es := by
  induction es generalizing s with
  | nil => trivial
  | cons e es ih =>
      exact fun t _ => ⟨h e (List.mem_cons_self ..) s, ih fun e' he' => h e' (List.mem_cons_of_mem _ he')⟩

/-- The condition on a sequence, split at a state in between. -/
theorem throughout_append {C : State → Event → Prop} {s : State} {first second : List Event} :
    Throughout step C s (first ++ second) ↔
      Throughout step C s first ∧ ∀ s', run step s first = some s' → Throughout step C s' second := by
  induction first generalizing s with
  | nil =>
      constructor
      · exact fun h => ⟨trivial, fun s' hRun => Option.some.inj hRun ▸ h⟩
      · exact fun h => h.2 s rfl
  | cons e es ih =>
      constructor
      · intro h
        refine ⟨fun t hFirst => ⟨(h t hFirst).1, (ih.mp (h t hFirst).2).1⟩, fun s' hRun => ?_⟩
        obtain ⟨t, hFirst, hRest⟩ := run_cons_eq_some.mp hRun
        exact (ih.mp (h t hFirst).2).2 s' hRest
      · rintro ⟨h, hSecond⟩ t hFirst
        refine ⟨(h t hFirst).1, ih.mpr ⟨(h t hFirst).2, fun s' hRun => ?_⟩⟩
        exact hSecond s' (run_cons_eq_some.mpr ⟨t, hFirst, hRun⟩)

/-- A run of one sequence after another. -/
theorem run_append {s : State} {first second : List Event} :
    run step s (first ++ second) = (run step s first).bind fun s' => run step s' second := by
  induction first generalizing s with
  | nil => rfl
  | cons e es ih =>
      rw [List.cons_append, run_cons, run_cons, Option.bind_assoc]
      exact congrArg _ (funext fun _ => ih)

/-- What the steps of a run keep is the same at its end. -/
theorem part_of_throughout {α : Type w} {I : State → Prop} {C : State → Event → Prop} {part : State → α}
    (hInv : ∀ s e s', I s → step s e = some s' → I s')
    (hKeeps : ∀ s e s', I s → C s e → step s e = some s' → part s' = part s) {s s' : State} {es : List Event}
    (hs : I s) (hC : Throughout step C s es) (hRun : run step s es = some s') : part s' = part s := by
  induction es generalizing s with
  | nil =>
      cases hRun
      rfl
  | cons e es ih =>
      obtain ⟨t, hFirst, hRest⟩ := run_cons_eq_some.mp hRun
      obtain ⟨hHere, hLater⟩ := hC t hFirst
      rw [ih (hInv s e t hs hFirst) hLater hRest, hKeeps s e t hs hHere hFirst]

/-- A completed run either never meets the condition, or there is a last step that does. -/
theorem throughout_or_last {C : State → Event → Prop} {s s' : State} {es : List Event}
    (hRun : run step s es = some s') :
    Throughout step (fun s e => ¬ C s e) s es ∨
      ∃ done e rest before mid, es = done ++ e :: rest ∧ run step s done = some before ∧
        step before e = some mid ∧ run step mid rest = some s' ∧ C before e ∧
        Throughout step (fun s e => ¬ C s e) mid rest := by
  induction es generalizing s with
  | nil => exact .inl trivial
  | cons e es ih =>
      obtain ⟨t, hFirst, hRest⟩ := run_cons_eq_some.mp hRun
      rcases ih hRest with hNever | ⟨done, last, rest, before, mid, rfl, hDone, hLast, hEnd, hMeets, hNever⟩
      · by_cases hHere : C s e
        · exact .inr ⟨[], e, es, s, t, rfl, rfl, hFirst, hRest, hHere, hNever⟩
        · refine .inl fun t' hFirst' => ?_
          rw [Option.some.inj (hFirst'.symm.trans hFirst)]
          exact ⟨hHere, hNever⟩
      · exact .inr ⟨e :: done, last, rest, before, mid, rfl, run_cons_eq_some.mpr ⟨t, hFirst, hDone⟩, hLast,
          hEnd, hMeets, hNever⟩

section Relation

universe u' v'

variable {State' : Type u'} {Event' : Type v'} {step' : State' → Event' → Option State'}

/-- The simulation rule. Two machines that take corresponding events to related
states, or both to none, do so over whole runs. -/
theorem run_rel {R : State → State' → Prop} {C : Event → Event' → Prop}
    (hStep : ∀ s t e f, R s t → C e f → Option.Rel R (step s e) (step' t f)) {s : State} {t : State'}
    {es : List Event} {fs : List Event'} (hEvents : List.Forall₂ C es fs) (hst : R s t) :
    Option.Rel R (run step s es) (run step' t fs) := by
  induction hEvents generalizing s t with
  | nil => exact .some hst
  | @cons e f es fs hHead _ ih =>
      rw [run_cons, run_cons]
      have hFirst := hStep s t e f hst hHead
      generalize step s e = first at hFirst
      generalize step' t f = first' at hFirst
      cases hFirst with
      | none => exact .none
      | some hNext => exact ih hNext

end Relation

end Transition
