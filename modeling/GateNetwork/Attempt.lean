/-!
# Attempts

Most operations of this library change some state and may fail on the way. What happened to the
state before the failure is visible afterwards (a gate that was appended stays, a vector that was
cached stays), so a failure carries the state it was reached in.
-/

namespace GateNetwork

/-- A computation over the state `σ` that ends in a value or in an error, and in both cases in a
state. -/
abbrev Attempt (ε σ α : Type) : Type := EStateM ε σ α

namespace Attempt

variable {ε σ τ α β : Type}

/-- Runs a computation on a part of the state; the rest of the state is left alone. -/
def focus (part : σ → τ) (restore : τ → σ → σ) (act : Attempt ε τ α) : Attempt ε σ α := fun s =>
  match act (part s) with
  | .ok a t => .ok a (restore t s)
  | .error e t => .error e (restore t s)

/-- A computation that reads no state and changes none. -/
def ofExcept (outcome : Except ε α) : Attempt ε σ α := fun s =>
  match outcome with
  | .ok a => .ok a s
  | .error e => .error e s

/-- Runs a computation beside a second state, which it may read. Its value is given to the second
state; a failure leaves the second state as it was. -/
def beside (act : τ → Attempt ε σ α) (give : α → σ → τ → Except ε β × τ) : Attempt ε (σ × τ) β :=
  fun (s, t) =>
    match act t s with
    | .error e s => .error e (s, t)
    | .ok a s =>
      let (outcome, t) := give a s t
      ofExcept outcome (s, t)

@[simp] theorem ofExcept_ok (a : α) (s : σ) :
    (ofExcept (.ok a) : Attempt ε σ α) s = .ok a s := rfl

@[simp] theorem ofExcept_error (e : ε) (s : σ) :
    (ofExcept (.error e) : Attempt ε σ α) s = .error e s := rfl

/-- The outcome of a run, apart from the state. -/
def outcome (act : Attempt ε σ α) (s : σ) : Except ε α :=
  match act s with
  | .ok a _ => .ok a
  | .error e _ => .error e

/-- The state that a run ends in. -/
def final (act : Attempt ε σ α) (s : σ) : σ :=
  match act s with
  | .ok _ t => t
  | .error _ t => t

/-! ## How computations run -/

@[simp] theorem get_apply (s : σ) : (get : Attempt ε σ σ) s = .ok s s := rfl

@[simp] theorem set_apply (t s : σ) : (set t : Attempt ε σ PUnit) s = .ok ⟨⟩ t := rfl

/-- A second computation runs on the value and the state of the first. -/
theorem bind_ok {act : Attempt ε σ α} {s t : σ} {a : α} (h : act s = .ok a t)
    (next : α → Attempt ε σ β) : (act >>= next) s = next a t := by
  show EStateM.bind act next s = next a t
  rw [EStateM.bind, h]

/-- Nothing runs after a failure. -/
theorem bind_error {act : Attempt ε σ α} {s t : σ} {e : ε} (h : act s = .error e t)
    (next : α → Attempt ε σ β) : (act >>= next) s = .error e t := by
  show EStateM.bind act next s = .error e t
  rw [EStateM.bind, h]

/-- Only the value is changed by a function that follows. -/
theorem map_ofExcept {act : Attempt ε σ α} {s t : σ} {r : Except ε α} (h : act s = ofExcept r t)
    (f : α → β) : (act >>= fun a => pure (f a)) s = ofExcept (r.map f) t := by
  cases r with
  | ok a => exact bind_ok h _
  | error e => exact bind_error h _

theorem focus_ofExcept {part : σ → τ} {restore : τ → σ → σ} {act : Attempt ε τ α} {s : σ} {t : τ}
    {r : Except ε α} (h : act (part s) = ofExcept r t) :
    focus part restore act s = ofExcept r (restore t s) := by
  rw [focus, h]
  cases r <;> rfl

/-- What comes of a second state when it is given a value or an error. -/
def given (give : α → σ → τ → Except ε β × τ) (r : Except ε α) (s : σ) (t : τ) : Except ε β × τ :=
  match r with
  | .ok a => give a s t
  | .error e => (.error e, t)

theorem beside_of_eq (act : τ → Attempt ε σ α) (give : α → σ → τ → Except ε β × τ) {s last : σ}
    {t : τ} {r : Except ε α} (h : act t s = ofExcept r last) :
    beside act give (s, t) = ofExcept (given give r last t).1 (last, (given give r last t).2) := by
  simp only [beside, h]
  cases r <;> rfl

theorem outcome_of_eq {act : Attempt ε σ α} {s t : σ} {r : Except ε α} (h : act s = ofExcept r t) :
    outcome act s = r := by
  rw [outcome, h]
  cases r <;> rfl

theorem final_of_eq {act : Attempt ε σ α} {s t : σ} {r : Except ε α} (h : act s = ofExcept r t) :
    final act s = t := by
  rw [final, h]
  cases r <;> rfl

theorem final_bind_ok {act : Attempt ε σ α} {s t : σ} {a : α} (h : act s = .ok a t)
    (next : α → Attempt ε σ β) : (act >>= next).final s = (next a).final t := by
  rw [final, bind_ok h, final]

theorem final_ofExcept_bind (r : Except ε α) (next : α → Attempt ε σ β) (s : σ) :
    (ofExcept r >>= next).final s =
      match r with
      | .ok a => (next a).final s
      | .error _ => s := by
  cases r with
  | ok a => exact final_bind_ok (ofExcept_ok a s) next
  | error e => rw [final, bind_error (ofExcept_error e s)]

/-- A second computation that leaves the state alone. -/
theorem final_bind_of_final {act : Attempt ε σ α} {next : α → Attempt ε σ β}
    (h : ∀ a t, (next a).final t = t) (s : σ) : (act >>= next).final s = act.final s := by
  cases hact : act s with
  | ok a t => rw [final_bind_ok hact, h, final, hact]
  | error e t => rw [final, bind_error hact, final, hact]

theorem outcome_bind (act : Attempt ε σ α) (next : α → Attempt ε σ β) (s : σ) :
    (act >>= next).outcome s = (act.outcome s).bind fun a => (next a).outcome (act.final s) := by
  cases h : act s with
  | ok a t => rw [outcome, bind_ok h, outcome, final, h, Except.bind, outcome]
  | error e t => rw [outcome, bind_error h, outcome, h, Except.bind]

theorem outcome_ofExcept_bind (r : Except ε α) (next : α → Attempt ε σ β) (s : σ) :
    (ofExcept r >>= next).outcome s = r.bind fun a => (next a).outcome s := by
  rw [outcome_bind]
  cases r <;> rfl

/-- A run is its outcome and its final state. -/
theorem eq_ofExcept (act : Attempt ε σ α) (s : σ) :
    act s = ofExcept (act.outcome s) (act.final s) := by
  rw [outcome, final]
  cases act s <;> rfl

/-- The first state ends as it does without the second one. -/
theorem fst_final_beside (act : τ → Attempt ε σ α) (give : α → σ → τ → Except ε β × τ) (s : σ)
    (t : τ) : ((beside act give).final (s, t)).1 = (act t).final s := by
  rw [final_of_eq (beside_of_eq act give (eq_ofExcept (act t) s))]

/-- If every value is accepted, then an error has left the second state alone. -/
theorem snd_of_beside_error {act : τ → Attempt ε σ α} {give : α → σ → τ → Except ε β × τ}
    (hgive : ∀ a s t e, (give a s t).1 ≠ .error e) {s : σ} {t : τ} {e : ε} {last : σ × τ}
    (h : beside act give (s, t) = .error e last) : last.2 = t := by
  rw [beside_of_eq act give (eq_ofExcept (act t) s)] at h
  cases hr : (act t).outcome s with
  | ok a =>
    rw [hr] at h
    cases hgiven : (give a ((act t).final s) t).1 with
    | ok v => simp [given, hgiven] at h
    | error e' => exact absurd hgiven (hgive a _ t e')
  | error e' =>
    rw [hr] at h
    cases h
    rfl

/-- The outcome too, if the second computation answers with a function of the first one's value. -/
theorem bind_ofExcept {act : Attempt ε σ α} {next : α → Attempt ε σ β} {f : α → Except ε β}
    {r : Except ε α} {s t : σ} (h : act s = ofExcept r t)
    (hnext : ∀ a, next a t = ofExcept (f a) t) : (act >>= next) s = ofExcept (r.bind f) t := by
  cases r with
  | ok a => exact (bind_ok h next).trans (hnext a)
  | error e => exact bind_error h next

end Attempt

end GateNetwork
