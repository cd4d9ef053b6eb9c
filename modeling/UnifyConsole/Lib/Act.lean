import UnifyConsole.Lib.Tx

/-!
# Calls that keep what they did

A transaction that fails leaves nothing behind.  A call made of several
transactions is different: it stops at the first one that fails and what the
others did stays done.  `Act σ ε` is that: a state next to the answer, whether
the answer is a result or an error.

`commit` runs a transaction body as one step of such a call, `attempt` hands an
error to the caller, and `zoom` runs a call on a part of the state.
-/

namespace UnifyConsole.Lib

/-- A call over states `σ` that answers an `α` or fails with an `ε`. -/
def Act (σ ε α : Type) := σ → Except ε α × σ

namespace Act

variable {σ τ ε ε' α β : Type} {s s' : σ} {a : α} {e : ε}

instance : Monad (Act σ ε) where
  pure a := fun s => (.ok a, s)
  bind x f := fun s =>
    match x s with
    | (.ok a, s') => f a s'
    | (.error e, s') => (.error e, s')

/-- Fail with `e`. -/
def fail (e : ε) : Act σ ε α := fun s => (.error e, s)

def read (f : σ → α) : Act σ ε α := fun s => (.ok (f s), s)

def write (f : σ → σ) : Act σ ε Unit := fun s => (.ok (), f s)

/-- Run `x` and answer how it ended. -/
def attempt (x : Act σ ε α) : Act σ ε' (Except ε α) := fun s => (.ok (x s).1, (x s).2)

def commit (x : Tx σ ε α) : Act σ ε α := fun s =>
  match x s with
  | .ok (a, s') => (.ok a, s')
  | .error e => (.error e, s)

def answer (r : Except ε α) : Act σ ε α := fun s => (r, s)

/-- Run a call on a part of the state, with its errors among those of the whole. -/
def zoom (get : τ → σ) (set : τ → σ → τ) (err : ε → ε') (x : Act σ ε α) : Act τ ε' α :=
  fun t => ((x (get t)).1.mapError err, set t (x (get t)).2)

def mapError (err : ε → ε') (x : Act σ ε α) : Act σ ε' α :=
  fun s => ((x s).1.mapError err, (x s).2)

variable {x : Act σ ε α} {f : α → Act σ ε β}

theorem bind_of_ok (h : x s = (.ok a, s')) : (x >>= f) s = f a s' := by
  show (match x s with
    | (.ok a, s') => f a s'
    | (.error e, s') => (.error e, s')) = _
  rw [h]

theorem bind_of_error (h : x s = (.error e, s')) : (x >>= f) s = (.error e, s') := by
  show (match x s with
    | (.ok a, s') => f a s'
    | (.error e, s') => (.error e, s')) = _
  rw [h]

/-- **A successful sequence** is a success followed by a success. -/
theorem bind_ok {b : β} {t : σ} :
    (x >>= f) s = (.ok b, t) ↔ ∃ a s', x s = (.ok a, s') ∧ f a s' = (.ok b, t) := by
  rcases hx : x s with ⟨r, s'⟩
  cases r with
  | error => simp [bind_of_error hx]
  | ok a =>
    rw [bind_of_ok hx]
    constructor
    · intro h
      exact ⟨a, s', rfl, h⟩
    · rintro ⟨a', s'', he, h⟩
      cases he
      exact h

@[simp] theorem pure_apply (a : α) (s : σ) : (pure a : Act σ ε α) s = (.ok a, s) := rfl

@[simp] theorem fail_apply (e : ε) (s : σ) : (fail e : Act σ ε α) s = (.error e, s) := rfl

@[simp] theorem read_apply (f : σ → α) (s : σ) : (read f : Act σ ε α) s = (.ok (f s), s) := rfl

@[simp] theorem write_apply (f : σ → σ) (s : σ) :
    (write f : Act σ ε Unit) s = (.ok (), f s) := rfl

@[simp] theorem answer_apply (r : Except ε α) (s : σ) : (answer r : Act σ ε α) s = (r, s) := rfl

@[simp] theorem attempt_apply (x : Act σ ε α) (s : σ) :
    (attempt x : Act σ ε' _) s = (.ok (x s).1, (x s).2) := rfl

@[simp] theorem read_bind (f : σ → α) (g : α → Act σ ε β) (s : σ) :
    (read f >>= g) s = g (f s) s := rfl

@[simp] theorem write_bind (f : σ → σ) (g : Unit → Act σ ε β) (s : σ) :
    (write f >>= g) s = g () (f s) := rfl

@[simp] theorem attempt_bind (x : Act σ ε α) (g : Except ε α → Act σ ε' β) (s : σ) :
    (attempt x >>= g) s = g (x s).1 (x s).2 := rfl

theorem commit_of_ok {x : Tx σ ε α} (h : x s = .ok (a, s')) : commit x s = (.ok a, s') := by
  rw [commit, h]

theorem commit_of_error {x : Tx σ ε α} (h : x s = .error e) : commit x s = (.error e, s) := by
  rw [commit, h]

theorem commit_ok {x : Tx σ ε α} : commit x s = (.ok a, s') ↔ x s = .ok (a, s') := by
  unfold commit
  cases hx : x s with
  | error => simp
  | ok => simp [Prod.ext_iff]

variable {get : τ → σ} {set : τ → σ → τ} {err : ε → ε'} {t : τ}

theorem zoom_of_ok (h : x (get t) = (.ok a, s')) : zoom get set err x t = (.ok a, set t s') := by
  rw [zoom, h]
  rfl

theorem zoom_of_error (h : x (get t) = (.error e, s')) :
    zoom get set err x t = (.error (err e), set t s') := by
  rw [zoom, h]
  rfl

theorem zoom_ok {t' : τ} :
    zoom get set err x t = (.ok a, t') ↔ ∃ s, x (get t) = (.ok a, s) ∧ t' = set t s := by
  rcases hx : x (get t) with ⟨r, s⟩
  cases r with
  | error => simp [zoom_of_error hx]
  | ok =>
    rw [zoom_of_ok hx]
    constructor
    · intro h
      cases h
      exact ⟨s, rfl, rfl⟩
    · rintro ⟨s', he, rfl⟩
      cases he
      rfl

theorem mapError_of_ok (h : x s = (.ok a, s')) : mapError err x s = (.ok a, s') := by
  rw [mapError, h]
  rfl

theorem mapError_of_error (h : x s = (.error e, s')) : mapError err x s = (.error (err e), s') := by
  rw [mapError, h]
  rfl

theorem mapError_ok : mapError err x s = (.ok a, s') ↔ x s = (.ok a, s') := by
  rcases hx : x s with ⟨r, t⟩
  cases r with
  | error => simp [mapError_of_error hx]
  | ok => rw [mapError_of_ok hx]; simp

end Act

end UnifyConsole.Lib
