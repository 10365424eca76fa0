/-!
# Steps that may fail

When steps that may fail, taken one after the other, give a result: when each does, on what the one
before it gave. They fail when the first of them does that is reached.
-/

namespace PbxAgent

variable {ε ε' α β : Type}

theorem bind_eq_ok {x : Except ε α} {f : α → Except ε β} {b : β} :
    x >>= f = .ok b ↔ ∃ a, x = .ok a ∧ f a = .ok b := by
  cases x with
  | error e => simp [bind, Except.bind]
  | ok a => simp [bind, Except.bind]

theorem bind_eq_error {x : Except ε α} {f : α → Except ε β} {e : ε} :
    x >>= f = .error e ↔ x = .error e ∨ ∃ a, x = .ok a ∧ f a = .error e := by
  cases x with
  | error e => simp [bind, Except.bind]
  | ok a => simp [bind, Except.bind]

theorem ok_bind (a : α) (f : α → Except ε β) : (Except.ok a : Except ε α) >>= f = f a :=
  rfl

theorem pure_eq_ok {a b : α} : (pure a : Except ε α) = .ok b ↔ a = b := by
  simp [pure, Except.pure]

theorem mapError_eq_ok {x : Except ε α} {f : ε → ε'} {a : α} :
    x.mapError f = .ok a ↔ x = .ok a := by
  cases x with
  | error e => exact iff_of_false nofun nofun
  | ok b =>
    show (Except.ok b : Except ε' α) = .ok a ↔ _
    simp only [Except.ok.injEq]

theorem mapError_eq_error {x : Except ε α} {f : ε → ε'} {e : ε'} :
    x.mapError f = .error e ↔ ∃ d, x = .error d ∧ f d = e := by
  cases x with
  | ok a => exact iff_of_false nofun nofun
  | error d =>
    show (Except.error (f d) : Except ε' α) = .error e ↔ _
    simp only [Except.error.injEq, exists_eq_left']

theorem isOk_mapError (x : Except ε α) (f : ε → ε') : (x.mapError f).isOk = x.isOk := by
  cases x <;> rfl

/-- A check gives nothing but leave to go on. -/
theorem exists_unit_eq_ok {x : Except ε Unit} {P : Prop} :
    (∃ a, x = .ok a ∧ P) ↔ x = .ok () ∧ P := by
  constructor
  · rintro ⟨⟨⟩, hx, hp⟩
    exact ⟨hx, hp⟩
  · rintro ⟨hx, hp⟩
    exact ⟨(), hx, hp⟩

/-- Steps with the same results differ at most in how they fail. -/
theorem toOption_congr {x y : Except ε α} (h : ∀ a, x = .ok a ↔ y = .ok a) :
    x.toOption = y.toOption := by
  have toOption_eq : ∀ (z : Except ε α) a, z.toOption = some a ↔ z = .ok a := by
    intro z a
    cases z <;> simp [Except.toOption]
  refine Option.ext fun a => ?_
  rw [toOption_eq, toOption_eq, h]

end PbxAgent
