import Mathlib.Logic.Basic

/-!
# Transaction bodies

A transaction body reads and writes a state and may fail; when it fails the
state it had built is thrown away.  `Tx σ ε` is that: a state monad over
`Except`.  The statements a body is made of are `read`, `fetch` (a row that has
to be there), `ensure` (a check), `write` and `writeSome` (a write that may be
refused), and `zoom` runs a body of one part of the state inside the whole.

Each of them has a lemma saying when it succeeds and with what, so that a
successful body is taken apart from the front: `bind_ok` splits off the first
statement and the statement's own lemma says what it did.
-/

namespace UnifyConsole.Lib

/-- A transaction body over states `σ` with errors `ε`. -/
abbrev Tx (σ ε : Type) := StateT σ (Except ε)

namespace Tx

variable {σ τ ε α β : Type} {s s' : σ} {e : ε}

variable {x : Tx σ ε α} {f : α → Tx σ ε β}

/-- **A successful sequence** is a success followed by a success. -/
theorem bind_ok {r : β × σ} : (x >>= f) s = .ok r ↔ ∃ a s', x s = .ok (a, s') ∧ f a s' = .ok r := by
  show (Except.bind (x s) fun p => f p.1 p.2) = .ok r ↔ _
  cases hx : x s with
  | error => simp [Except.bind]
  | ok p =>
    constructor
    · intro h
      exact ⟨p.1, p.2, rfl, h⟩
    · rintro ⟨a, s', he, h⟩
      cases he
      exact h

variable {a : α}

theorem bind_of_ok (h : x s = .ok (a, s')) : (x >>= f) s = f a s' := by
  show (Except.bind (x s) fun p => f p.1 p.2) = _
  rw [h]
  rfl

theorem bind_of_error (h : x s = .error e) : (x >>= f) s = .error e := by
  show (Except.bind (x s) fun p => f p.1 p.2) = _
  rw [h]
  rfl

theorem bind_error :
    (x >>= f) s = .error e ↔ x s = .error e ∨ ∃ a s', x s = .ok (a, s') ∧ f a s' = .error e := by
  cases hx : x s with
  | error => rw [bind_of_error hx]; simp
  | ok p =>
    rw [bind_of_ok (show x s = .ok (p.1, p.2) from hx)]
    constructor
    · intro h
      exact .inr ⟨p.1, p.2, rfl, h⟩
    rintro (h | ⟨a, s', he, h⟩)
    · cases h
    · cases he
      exact h

variable {r : α × σ}

theorem pure_ok : (pure a : Tx σ ε α) s = .ok r ↔ r = (a, s) := by
  show Except.ok (a, s) = .ok r ↔ _
  rw [Except.ok.injEq, eq_comm]

theorem pure_error : (pure a : Tx σ ε α) s = .error e ↔ False := by
  show Except.ok (a, s) = .error e ↔ _
  simp

/-- Fail with `e`. -/
def fail (e : ε) : Tx σ ε α := fun _ => .error e

theorem fail_ok : (fail e : Tx σ ε α) s = .ok r ↔ False := by
  simp [fail]

/-- Fail with `e` unless `c`. -/
def ensure (c : Prop) [Decidable c] (e : ε) : Tx σ ε Unit :=
  fun s => if c then .ok ((), s) else .error e

variable {c : Prop}

theorem ensure_ok [Decidable c] {r : Unit × σ} :
    (ensure c e : Tx σ ε Unit) s = .ok r ↔ c ∧ r = ((), s) := by
  unfold ensure
  split
  · rename_i hc
    simp [hc, eq_comm]
  · rename_i hc
    simp [hc]

variable {e' : ε}

theorem ensure_error [Decidable c] : (ensure c e' : Tx σ ε Unit) s = .error e ↔ ¬ c ∧ e = e' := by
  unfold ensure
  split
  · rename_i hc
    simp [hc]
  · rename_i hc
    simp [hc, eq_comm]

/-- Run `x` when `c` holds. -/
def when (c : Prop) [Decidable c] (x : Tx σ ε Unit) : Tx σ ε Unit := if c then x else pure ()

theorem when_ok [Decidable c] {x : Tx σ ε Unit} {r : Unit × σ} :
    (when c x) s = .ok r ↔ (c ∧ x s = .ok r) ∨ (¬ c ∧ r = ((), s)) := by
  unfold when
  split
  · rename_i hc
    simp [hc]
  · rename_i hc
    simp [hc, pure_ok]

theorem when_error [Decidable c] {x : Tx σ ε Unit} :
    (when c x) s = .error e ↔ c ∧ x s = .error e := by
  unfold when
  split
  · rename_i hc
    simp [hc]
  · rename_i hc
    simp [hc, pure_error]

def read (f : σ → α) : Tx σ ε α := fun s => .ok (f s, s)

theorem read_ok {f : σ → α} : (read f : Tx σ ε α) s = .ok r ↔ r = (f s, s) := by
  simp [read, eq_comm]

theorem read_error {f : σ → α} : (read f : Tx σ ε α) s = .error e ↔ False := by
  simp [read]

def answer (r : Except ε α) : Tx σ ε α := fun s => r.map fun a => (a, s)

theorem answer_ok {r : Except ε α} {x : α × σ} :
    (answer r : Tx σ ε α) s = .ok x ↔ ∃ a, r = .ok a ∧ x = (a, s) := by
  unfold answer
  cases r with
  | error => simp [Except.map]
  | ok => simp [Except.map, eq_comm]

def fetch (f : σ → Option α) (e : ε) : Tx σ ε α := fun s =>
  match f s with
  | some a => .ok (a, s)
  | none => .error e

theorem fetch_ok {f : σ → Option α} : (fetch f e) s = .ok r ↔ ∃ a, f s = some a ∧ r = (a, s) := by
  unfold fetch
  cases f s with
  | none => simp
  | some => simp [eq_comm]

theorem fetch_error {f : σ → Option α} : (fetch f e') s = .error e ↔ f s = none ∧ e = e' := by
  unfold fetch
  cases f s with
  | none => simp [eq_comm]
  | some => simp

def write (f : σ → σ) : Tx σ ε Unit := fun s => .ok ((), f s)

theorem write_ok {f : σ → σ} {r : Unit × σ} :
    (write f : Tx σ ε Unit) s = .ok r ↔ r = ((), f s) := by
  simp [write, eq_comm]

theorem write_error {f : σ → σ} : (write f : Tx σ ε Unit) s = .error e ↔ False := by
  simp [write]

def writeSome (f : σ → Option σ) (e : ε) : Tx σ ε Unit := fun s =>
  match f s with
  | some s' => .ok ((), s')
  | none => .error e

theorem writeSome_ok {f : σ → Option σ} {r : Unit × σ} :
    (writeSome f e) s = .ok r ↔ ∃ s', f s = some s' ∧ r = ((), s') := by
  unfold writeSome
  cases f s with
  | none => simp
  | some => simp [eq_comm]

theorem writeSome_error {f : σ → Option σ} :
    (writeSome f e') s = .error e ↔ f s = none ∧ e = e' := by
  unfold writeSome
  cases f s with
  | none => simp [eq_comm]
  | some => simp

/-- Run `x`, and `y` instead when `x` fails with `e`. -/
def rescue [DecidableEq ε] (x : Tx σ ε α) (e : ε) (y : Tx σ ε α) : Tx σ ε α := fun s =>
  match x s with
  | .ok r => .ok r
  | .error e' => if e' = e then y s else .error e'

theorem rescue_ok [DecidableEq ε] {y : Tx σ ε α} :
    (rescue x e y) s = .ok r ↔ x s = .ok r ∨ (x s = .error e ∧ y s = .ok r) := by
  unfold rescue
  cases x s with
  | ok => simp
  | error e' =>
    by_cases he : e' = e
    · simp [he]
    · simp [he]

/-- Run `x` and go on with its error when it fails. -/
def attempt (x : Tx σ ε α) : Tx σ ε (Except ε α) := fun s =>
  match x s with
  | .ok (a, s') => .ok (.ok a, s')
  | .error e => .ok (.error e, s)

theorem attempt_ok {r : Except ε α × σ} :
    attempt x s = .ok r ↔ (∃ a s', x s = .ok (a, s') ∧ r = (.ok a, s')) ∨
      ∃ e, x s = .error e ∧ r = (.error e, s) := by
  unfold attempt
  cases x s with
  | ok p =>
    constructor
    · intro h
      exact .inl ⟨p.1, p.2, rfl, (Except.ok.inj h).symm⟩
    rintro (⟨a, s', he, rfl⟩ | ⟨e, he, -⟩)
    · cases he
      rfl
    · cases he
  | error => simp [eq_comm]

/-- Run a body of a part of the state, with its errors among those of the whole. -/
def zoom {ε' : Type} (get : τ → σ) (set : τ → σ → τ) (err : ε → ε') (x : Tx σ ε α) : Tx τ ε' α :=
  fun t =>
    match x (get t) with
    | .ok (a, s) => .ok (a, set t s)
    | .error e => .error (err e)

variable {ε' : Type} {get : τ → σ} {set : τ → σ → τ} {t : τ} {err : ε → ε'}

theorem zoom_ok {r : α × τ} :
    (zoom get set err x) t = .ok r ↔ ∃ a s, x (get t) = .ok (a, s) ∧ r = (a, set t s) := by
  unfold zoom
  cases x (get t) with
  | error => simp
  | ok p =>
    constructor
    · intro h
      exact ⟨p.1, p.2, rfl, (Except.ok.inj h).symm⟩
    · rintro ⟨a, s, he, rfl⟩
      cases he
      rfl

theorem zoom_error {e : ε'} :
    (zoom get set err x) t = .error e ↔ ∃ e', x (get t) = .error e' ∧ e = err e' := by
  unfold zoom
  cases x (get t) with
  | error => simp [eq_comm]
  | ok => simp

/-- Run a body as one transaction: it commits, or it leaves the state as it was and fails with
`refused`. -/
def run (commits : Bool) (refused : ε) (x : Tx σ ε α) (s : σ) : Except ε α × σ :=
  match x s with
  | .error e => (.error e, s)
  | .ok (a, s') => if commits then (.ok a, s') else (.error refused, s)

/-- **All or nothing**: a transaction that changed the state is one whose body
succeeded. -/
theorem run_cases (commits : Bool) (refused : ε) (x : Tx σ ε α) (s : σ) :
    (∃ a, x s = .ok (a, (run commits refused x s).2) ∧
      (run commits refused x s).1 = .ok a) ∨
    ((run commits refused x s).2 = s ∧ ∃ e, (run commits refused x s).1 = .error e) := by
  unfold run
  cases hx : x s with
  | error e => exact .inr ⟨rfl, e, rfl⟩
  | ok p =>
    obtain ⟨a, s'⟩ := p
    cases commits with
    | true => exact .inl ⟨a, rfl, rfl⟩
    | false => exact .inr ⟨rfl, refused, rfl⟩

/-! ### Pre- and postconditions -/

/-- From `s` the body ends with `Q`, or fails with an error in `E`. -/
def Spec (x : Tx σ ε α) (s : σ) (Q : α → σ → Prop) (E : ε → Prop) : Prop :=
  match x s with
  | .ok r => Q r.1 r.2
  | .error e => E e

section Spec

variable {Q Q' : α → σ → Prop} {E : ε → Prop} {x : Tx σ ε α}

theorem Spec.ok (h : Spec x s Q E) (hx : x s = .ok (a, s')) : Q a s' := by
  unfold Spec at h
  rw [hx] at h
  exact h

theorem Spec.error (h : Spec x s Q E) (hx : x s = .error e) : E e := by
  unfold Spec at h
  rw [hx] at h
  exact h

theorem Spec.mono (h : Spec x s Q E) (hQ : ∀ a s', Q a s' → Q' a s') : Spec x s Q' E := by
  unfold Spec at h ⊢
  cases hx : x s with
  | error => rw [hx] at h; exact h
  | ok => rw [hx] at h; exact hQ _ _ h

/-- **Sequential composition**: the second body is judged where the first one
ended. -/
theorem spec_bind {Q : β → σ → Prop} (h : Spec x s (fun a s' => Spec (f a) s' Q E) E) :
    Spec (x >>= f) s Q E := by
  cases hx : x s with
  | error =>
    unfold Spec
    rw [bind_of_error hx]
    exact h.error hx
  | ok r =>
    have hr : x s = .ok (r.1, r.2) := hx
    unfold Spec
    rw [bind_of_ok hr]
    exact h.ok hr

theorem spec_pure (h : Q a s) : Spec (pure a : Tx σ ε α) s Q E := h

theorem spec_fail (h : E e) : Spec (fail e : Tx σ ε α) s Q E := h

theorem spec_read {f : σ → α} (h : Q (f s) s) : Spec (read f : Tx σ ε α) s Q E := h

theorem spec_write {f : σ → σ} {Q : Unit → σ → Prop} (h : Q () (f s)) :
    Spec (write f : Tx σ ε Unit) s Q E := h

theorem spec_ensure [Decidable c] {Q : Unit → σ → Prop} (he : ¬ c → E e) (h : c → Q () s) :
    Spec (ensure c e : Tx σ ε Unit) s Q E := by
  unfold Spec ensure
  by_cases hc : c
  · simp only [if_pos hc]
    exact h hc
  · simp only [if_neg hc]
    exact he hc

theorem spec_when [Decidable c] {x : Tx σ ε Unit} {Q : Unit → σ → Prop} (h : c → Spec x s Q E)
    (hn : ¬ c → Q () s) : Spec (when c x) s Q E := by
  unfold when
  split
  · rename_i hc
    exact h hc
  · rename_i hc
    exact hn hc

theorem spec_fetch {f : σ → Option α} (he : f s = none → E e) (h : ∀ a, f s = some a → Q a s) :
    Spec (fetch f e) s Q E := by
  unfold Spec fetch
  cases hf : f s with
  | none => exact he hf
  | some a => exact h a hf

theorem spec_writeSome {f : σ → Option σ} {Q : Unit → σ → Prop} (he : f s = none → E e)
    (h : ∀ s', f s = some s' → Q () s') : Spec (writeSome f e) s Q E := by
  unfold Spec writeSome
  cases hf : f s with
  | none => exact he hf
  | some s' => exact h s' hf

theorem spec_zoom {Q : α → τ → Prop} {E : ε' → Prop}
    (h : Spec x (get t) (fun a s => Q a (set t s)) fun e => E (err e)) :
    Spec (zoom get set err x) t Q E := by
  unfold Spec zoom
  cases hx : x (get t) with
  | error => exact h.error hx
  | ok r => exact h.ok (show x (get t) = .ok (r.1, r.2) from hx)

end Spec

end Tx

end UnifyConsole.Lib
