/-! Programs that change a state and may stop with an error, in the monad
`EStateM`. An error keeps the state in which it was raised. The rules below
take a program apart, either along a completed run or for one part of the
state that the program leaves alone however it ends. -/
namespace Program

universe u

variable {ε σ α β : Type u} {a : α} {b : β} {s s' : σ} {e : ε}

def ofExcept : Except ε α → EStateM ε σ α
  | .ok a => pure a
  | .error e => throw e

/-- The state in which a program stops, normally or by an error. -/
def finalState : EStateM.Result ε σ α → σ
  | .ok _ s => s
  | .error _ s => s

/-- The state it leaves if it completes. -/
def completed : EStateM.Result ε σ α → Option σ
  | .ok _ s => some s
  | .error _ _ => none

section Run

variable {x : EStateM ε σ α} {f : α → EStateM ε σ β}

/-- A completed sequence has a completed first part, and the rest runs from
the state it left. -/
theorem bind_eq_ok :
    (x >>= f).run s = .ok b s' ↔ ∃ a mid, x.run s = .ok a mid ∧ (f a).run mid = .ok b s' := by
  rw [EStateM.run_bind]
  cases hx : x.run s with
  | ok a mid =>
      constructor
      · exact fun h => ⟨a, mid, rfl, h⟩
      · rintro ⟨_, _, hOk, h⟩
        cases hOk
        exact h
  | error e mid =>
      constructor
      · exact fun h => by cases h
      · rintro ⟨_, _, hOk, _⟩
        cases hOk

theorem run_bind_of_ok (hx : x.run s = .ok a s') : (x >>= f).run s = (f a).run s' := by
  rw [EStateM.run_bind, hx]

theorem run_bind_of_error (hx : x.run s = .error e s') : (x >>= f).run s = .error e s' := by
  rw [EStateM.run_bind, hx]

theorem run_get_bind {f : σ → EStateM ε σ α} :
    ((get : EStateM ε σ σ) >>= f).run s = (f s).run s := rfl

theorem run_set_bind {f : PUnit → EStateM ε σ α} :
    ((set s' : EStateM ε σ PUnit) >>= f).run s = (f ⟨⟩).run s' := rfl

theorem pure_eq_ok {a' : α} : (pure a : EStateM ε σ α).run s = .ok a' s' ↔ a' = a ∧ s' = s := by
  show EStateM.Result.ok a s = .ok a' s' ↔ _
  rw [EStateM.Result.ok.injEq, @eq_comm _ a a', @eq_comm _ s s']

theorem throw_ne_ok : (throw e : EStateM ε σ α).run s ≠ .ok a s' := fun h => by cases h

theorem ofExcept_eq_ok {r : Except ε α} :
    (ofExcept r).run s = .ok a s' ↔ r = .ok a ∧ s' = s := by
  cases r with
  | ok a' =>
      show EStateM.Result.ok a' s = .ok a s' ↔ _
      rw [EStateM.Result.ok.injEq, Except.ok.injEq, @eq_comm _ s s']
  | error e =>
      constructor
      · exact fun h => by cases h
      · exact fun h => by cases h.1

@[simp] theorem run_ofExcept_ok : (ofExcept (.ok a : Except ε α)).run s = .ok a s := rfl

@[simp] theorem run_ofExcept_error : (ofExcept (.error e : Except ε α)).run s = .error e s := rfl

theorem get_eq_ok {s'' : σ} : (get : EStateM ε σ σ).run s = .ok s'' s' ↔ s'' = s ∧ s' = s := by
  show EStateM.Result.ok s s = .ok s'' s' ↔ _
  rw [EStateM.Result.ok.injEq, @eq_comm _ s s', @eq_comm _ s s'']

theorem set_eq_ok {s'' : σ} {u : PUnit} : (set s'' : EStateM ε σ PUnit).run s = .ok u s' ↔ s' = s'' := by
  show EStateM.Result.ok _ s'' = .ok _ s' ↔ _
  rw [EStateM.Result.ok.injEq]
  exact ⟨fun h => h.2.symm, fun h => ⟨rfl, h.symm⟩⟩

theorem modify_eq_ok {g : σ → σ} {u : PUnit} :
    (modify g : EStateM ε σ PUnit).run s = .ok u s' ↔ s' = g s := by
  show EStateM.Result.ok _ (g s) = .ok _ s' ↔ _
  rw [EStateM.Result.ok.injEq]
  exact ⟨fun h => h.2.symm, fun h => ⟨rfl, h.symm⟩⟩

end Run

/-- A loop over one element. -/
theorem run_forM_singleton {f : α → EStateM ε σ PUnit} : ([a].forM f).run s = (f a).run s := by
  show (f a >>= fun _ => pure ⟨⟩ : EStateM ε σ PUnit).run s = _
  rw [EStateM.run_bind]
  cases (f a).run s <;> rfl

/-- The program leaves one part of the state as it is, even if it fails. -/
def Leaves {γ : Type u} (part : σ → γ) (s : σ) (x : EStateM ε σ α) : Prop :=
  part (finalState (x.run s)) = part s

section Leaves

variable {γ : Type u} {part : σ → γ}

theorem Leaves.bind {x : EStateM ε σ α} {f : α → EStateM ε σ β} (hx : Leaves part s x)
    (hf : ∀ a mid, x.run s = .ok a mid → Leaves part mid (f a)) : Leaves part s (x >>= f) := by
  unfold Leaves at hx ⊢
  rw [EStateM.run_bind]
  cases hRun : x.run s with
  | ok a mid =>
      rw [hRun] at hx
      exact (hf a mid hRun).trans hx
  | error e mid => rwa [hRun] at hx

theorem leaves_pure (a : α) : Leaves part s (pure a : EStateM ε σ α) := rfl

theorem leaves_ofExcept (r : Except ε α) : Leaves part s (ofExcept r) := by
  cases r <;> rfl

theorem leaves_set (h : part s' = part s) : Leaves part s (set s' : EStateM ε σ PUnit) := h

theorem leaves_modify {g : σ → σ} (h : part (g s) = part s) :
    Leaves part s (modify g : EStateM ε σ PUnit) := h

/-- Reading the state first. -/
theorem leaves_get {f : σ → EStateM ε σ α} (h : Leaves part s (f s)) :
    Leaves part s ((get : EStateM ε σ σ) >>= f) := h

end Leaves

/-- Two outcomes are alike: the same result or the same error, in related states. -/
inductive Alike {τ : Type u} (R : σ → τ → Prop) : EStateM.Result ε σ α → EStateM.Result ε τ α → Prop
  | ok (a : α) {s : σ} {t : τ} (h : R s t) : Alike R (.ok a s) (.ok a t)
  | error (e : ε) {s : σ} {t : τ} (h : R s t) : Alike R (.error e s) (.error e t)

section Alike

variable {τ : Type u} {R : σ → τ → Prop} {t t' : τ}

/-- Programs that are alike step by step are alike. -/
theorem Alike.bind {x : EStateM ε σ α} {y : EStateM ε τ α} {f : α → EStateM ε σ β} {g : α → EStateM ε τ β}
    (hx : Alike R (x.run s) (y.run t))
    (hf : ∀ a s' t', R s' t' → Alike R ((f a).run s') ((g a).run t')) :
    Alike R ((x >>= f).run s) ((y >>= g).run t) := by
  rw [EStateM.run_bind, EStateM.run_bind]
  generalize x.run s = left at hx
  generalize y.run t = right at hx
  cases hx with
  | ok a h => exact hf a _ _ h
  | error e h => exact .error e h

theorem alike_pure (a : α) (h : R s t) :
    Alike R ((pure a : EStateM ε σ α).run s) ((pure a : EStateM ε τ α).run t) := .ok a h

theorem alike_throw (e : ε) (h : R s t) :
    Alike R ((throw e : EStateM ε σ α).run s) ((throw e : EStateM ε τ α).run t) := .error e h

theorem alike_ofExcept (r : Except ε α) (h : R s t) : Alike R ((ofExcept r).run s) ((ofExcept r).run t) := by
  cases r with
  | ok a => exact .ok a h
  | error e => exact .error e h

theorem alike_set (h : R s' t') :
    Alike R ((set s' : EStateM ε σ PUnit).run s) ((set t' : EStateM ε τ PUnit).run t) := .ok _ h

theorem alike_modify {g : σ → σ} {g' : τ → τ} (h : R (g s) (g' t)) :
    Alike R ((modify g : EStateM ε σ PUnit).run s) ((modify g' : EStateM ε τ PUnit).run t) := .ok _ h

end Alike

end Program
