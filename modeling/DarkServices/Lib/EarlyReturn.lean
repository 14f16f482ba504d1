import Mathlib.Logic.Basic

/-!
# Functions with early returns

A function of the sources that returns an error at its first failed check is a chain of
binds in `Except`, one `failIf` for each `if cond { return err }`. Two rules read such a
chain:

* `bind_eq_ok` and `failIf_eq_ok` turn a success into the facts that each check passed;
* `ErrorsIn` bounds what the errors can be, without following which check failed.
-/

namespace Lib

variable {ε ε' α β : Type}

/-- `if cond { return err }`. -/
def failIf (cond : Prop) [Decidable cond] (e : ε) : Except ε Unit :=
  if cond then .error e else .ok ()

/-- `val, ok := ...; if !ok { return err }`. -/
def orFail (x : Option α) (e : ε) : Except ε α :=
  match x with
  | some a => .ok a
  | none => .error e

/-! ## Successes -/

/-- A sequence succeeds when each step succeeds in turn. -/
theorem bind_eq_ok {x : Except ε α} {f : α → Except ε β} {b : β} :
    (x >>= f) = .ok b ↔ ∃ a, x = .ok a ∧ f a = .ok b := by
  cases x <;> simp [bind, Except.bind]

theorem failIf_eq_ok {cond : Prop} [Decidable cond] {e : ε} {u : Unit} :
    failIf cond e = .ok u ↔ ¬ cond := by
  unfold failIf
  split
  · simp [*]
  · simp [*]

/-- The rest of a function runs when the check passes. -/
theorem failIf_bind_eq_ok {cond : Prop} [Decidable cond] {e : ε}
    {f : Unit → Except ε β} {b : β} :
    (failIf cond e >>= f) = .ok b ↔ ¬ cond ∧ f () = .ok b := by
  rw [bind_eq_ok]
  constructor
  · rintro ⟨⟨⟩, hc, hf⟩
    exact ⟨failIf_eq_ok.mp hc, hf⟩
  · rintro ⟨hc, hf⟩
    exact ⟨(), failIf_eq_ok.mpr hc, hf⟩

/-- A check that passes is skipped. -/
theorem failIf_bind_of_not {cond : Prop} [Decidable cond] {e : ε} {f : Unit → Except ε β}
    (h : ¬ cond) : (failIf cond e >>= f) = f () := by
  rw [failIf, if_neg h]
  rfl

theorem orFail_eq_ok {x : Option α} {e : ε} {a : α} : orFail x e = .ok a ↔ x = some a := by
  cases x <;> simp [orFail]

/-- A value that is there is passed on. -/
theorem orFail_bind_of_some {x : Option α} {e : ε} {a : α} {f : α → Except ε β}
    (h : x = some a) : (orFail x e >>= f) = f a := by
  rw [h]
  rfl

theorem mapError_eq_ok {x : Except ε α} {f : ε → ε'} {a : α} :
    x.mapError f = .ok a ↔ x = .ok a := by
  cases x with
  | error e =>
    constructor
    · intro h
      cases h
    · intro h
      cases h
  | ok b =>
    constructor
    · intro h
      cases h
      rfl
    · intro h
      cases h
      rfl

/-! ## Errors -/

/-- Every error the computation can end in is in `P`. -/
def ErrorsIn (P : ε → Prop) (x : Except ε α) : Prop := ∀ e, x = .error e → P e

theorem ErrorsIn.ok {P : ε → Prop} {a : α} : ErrorsIn P (.ok a : Except ε α) := by
  intro e h
  cases h

theorem ErrorsIn.error {P : ε → Prop} {e : ε} (he : P e) : ErrorsIn P (.error e : Except ε α) := by
  intro e' h
  cases h
  exact he

theorem ErrorsIn.failIf {P : ε → Prop} {cond : Prop} [Decidable cond] {e : ε} (he : P e) :
    ErrorsIn P (failIf cond e) := by
  unfold Lib.failIf
  split
  · exact .error he
  · exact .ok

theorem ErrorsIn.orFail {P : ε → Prop} {x : Option α} {e : ε} (he : P e) :
    ErrorsIn P (orFail x e) := by
  cases x with
  | none => exact .error he
  | some a => exact .ok

theorem ErrorsIn.mapError {P : ε' → Prop} {x : Except ε α} {f : ε → ε'} (hf : ∀ e, P (f e)) :
    ErrorsIn P (x.mapError f) := by
  cases x with
  | error e => exact .error (hf e)
  | ok a => exact .ok

theorem ErrorsIn.bind {P : ε → Prop} {x : Except ε α} {f : α → Except ε β}
    (hx : ErrorsIn P x) (hf : ∀ a, ErrorsIn P (f a)) : ErrorsIn P (x >>= f) := by
  cases x with
  | error e => exact .error (hx e rfl)
  | ok a => exact hf a

end Lib
