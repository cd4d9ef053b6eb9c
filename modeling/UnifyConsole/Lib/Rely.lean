import UnifyConsole.Lib.Prog

/-!
# What a program knows under interference

`Sat R Q P p` says of a program that shares its state with others, all of which
make `R`-steps: begun where `P` holds it makes `R`-steps itself, and when it
returns `a` then `Q a` holds.  What it knows between two of its steps is an
assertion that no `R`-step of anyone can break.

`Pool.reach_safe` joins the programs: in every interleaving, the calls that have
returned did so with their postcondition.
-/

namespace UnifyConsole.Lib

variable {σ α β ι : Type}

/-- No `R`-step breaks `P`. -/
def Stable (R : σ → σ → Prop) (P : σ → Prop) : Prop := ∀ s s', R s s' → P s → P s'

theorem stable_true (R : σ → σ → Prop) : Stable R (fun _ => True) := fun _ _ _ _ => trivial

variable {R : σ → σ → Prop}

theorem Stable.and {P P' : σ → Prop} (h : Stable R P) (h' : Stable R P') :
    Stable R (fun s => P s ∧ P' s) := fun s s' hR hP => ⟨h s s' hR hP.1, h' s s' hR hP.2⟩

/-- What follows from a fact that does not depend on the state. -/
theorem Stable.of_imp {P : σ → Prop} {c : Prop} (h : Stable R P) :
    Stable R (fun s => c → P s) := fun s s' hR hP hc => h s s' hR (hP hc)

theorem stable_forall_mem {P : α → σ → Prop} (h : ∀ a, Stable R (P a)) (l : List α) :
    Stable R (fun s => ∀ a ∈ l, P a s) :=
  fun s s' hR hP a ha => h a s s' hR (hP a ha)

namespace Prog

/-- Begun with `P` among others' `R`-steps, the program makes `R`-steps and returns with `Q`. -/
def Sat (R : σ → σ → Prop) (Q : α → σ → Prop) : (σ → Prop) → Prog σ α → Prop
  | P, ret a => ∀ s, P s → Q a s
  | P, step act next => ∀ s, P s →
      R s (act s) ∧ ∃ P', Stable R P' ∧ P' (act s) ∧ Sat R Q P' (next s)

variable {R : σ → σ → Prop} {P P' : σ → Prop} {Q Q' : α → σ → Prop}

variable {p : Prog σ α}

theorem Sat.weaken (h : Sat R Q P p) (hP : ∀ s, P' s → P s) : Sat R Q P' p := by
  cases p with
  | ret | step => exact fun s hs => h s (hP s hs)

/-- A fact that `P` implies and that does not depend on the state. -/
theorem Sat.of_fact {c : Prop} (hc : ∀ s, P s → c) (h : c → Sat R Q P p) : Sat R Q P p := by
  cases p with
  | ret | step => exact fun s hs => h (hc s hs) s hs

theorem Sat.of_exists {P : β → σ → Prop} (h : ∀ b, Sat R Q (P b) p) :
    Sat R Q (fun s => ∃ b, P b s) p := by
  cases p with
  | ret | step => exact fun s ⟨b, hs⟩ => h b s hs

theorem Sat.mono (h : Sat R Q P p) (hQ : ∀ a s, Q a s → Q' a s) : Sat R Q' P p := by
  induction p generalizing P with
  | ret a => exact fun s hs => hQ a s (h s hs)
  | step act next ih =>
    intro s hs
    obtain ⟨hR, P', hst, hP', hn⟩ := h s hs
    exact ⟨hR, P', hst, hP', ih s hn⟩

/-- **The frame rule**: what nobody breaks stays known. -/
theorem Sat.frame {F : σ → Prop} (h : Sat R Q P p) (hF : Stable R F) :
    Sat R (fun a s => Q a s ∧ F s) (fun s => P s ∧ F s) p := by
  induction p generalizing P with
  | ret => exact fun s hs => ⟨h s hs.1, hs.2⟩
  | step act next ih =>
    intro s hs
    obtain ⟨hR, P', hst, hP', hn⟩ := h s hs.1
    exact ⟨hR, _, hst.and hF, ⟨hP', hF _ _ hR hs.2⟩, ih s hn⟩

theorem sat_pure {a : α} (h : ∀ s, P s → Q a s) : Sat R Q P (pure a : Prog σ α) := h

/-- Sequential composition through assertions `M a` that nobody breaks. -/
theorem sat_bind {f : α → Prog σ β} {Q : β → σ → Prop} {M : α → σ → Prop} (hp : Sat R M P p)
    (hf : ∀ a, Sat R Q (M a) (f a)) : Sat R Q P (p >>= f) := by
  induction p generalizing P with
  | ret a => exact (hf a).weaken hp
  | step act next ih =>
    intro s hs
    obtain ⟨hR, P', hst, hP', hn⟩ := hp s hs
    exact ⟨hR, P', hst, hP', ih s hn⟩

theorem sat_atomic {x : σ → α × σ} (hQ : ∀ a, Stable R (Q a))
    (h : ∀ s, P s → R s (x s).2 ∧ Q (x s).1 (x s).2) : Sat R Q P (atomic x) :=
  fun s hs => ⟨(h s hs).1, Q (x s).1, hQ _, (h s hs).2, fun _ hq => hq⟩

theorem sat_look {f : σ → α} (hR : ∀ s, R s s) (hQ : ∀ a, Stable R (Q a))
    (h : ∀ s, P s → Q (f s) s) : Sat R Q P (look f) :=
  sat_atomic hQ fun s hs => ⟨hR s, h s hs⟩

/-- A program that makes `R`-steps keeps an assertion nobody breaks. -/
theorem sat_of_within (h : p.Within R) (hP : Stable R P) (hQ : ∀ a s, P s → Q a s) :
    Sat R Q P p := by
  induction p with
  | ret a => exact fun s hs => hQ a s hs
  | step act next ih =>
    intro s hs
    obtain ⟨_, hR, hn⟩ := h s
    exact ⟨hR, P, hP, hP _ _ hR hs, ih s hn⟩

/-- As `Sat`, for a program that makes `R`-steps whatever it knows. -/
def Tells (R : σ → σ → Prop) (Q : α → σ → Prop) : (σ → Prop) → Prog σ α → Prop
  | P, ret a => ∀ s, P s → Q a s
  | P, step act next => ∀ s,
      R s (act s) ∧ ∃ P', Stable R P' ∧ (P s → P' (act s)) ∧ Tells R Q P' (next s)

theorem Tells.sat (h : Tells R Q P p) : Sat R Q P p := by
  induction p generalizing P with
  | ret => exact h
  | step act next ih =>
    intro s hs
    obtain ⟨hR, P', hst, hP', hn⟩ := h s
    exact ⟨hR, P', hst, hP' hs, ih s hn⟩

theorem Tells.within (h : Tells R Q P p) : p.Within R := by
  induction p generalizing P with
  | ret a => exact within_pure a
  | step act next ih =>
    intro s
    obtain ⟨hR, P', -, -, hn⟩ := h s
    exact ⟨(), hR, ih s hn⟩

theorem Tells.weaken (h : Tells R Q P p) (hP : ∀ s, P' s → P s) : Tells R Q P' p := by
  cases p with
  | ret => exact fun s hs => h s (hP s hs)
  | step =>
    intro s
    obtain ⟨hR, P₁, hst, hP₁, hn⟩ := h s
    exact ⟨hR, P₁, hst, fun hs => hP₁ (hP s hs), hn⟩

theorem tells_pure {a : α} (h : ∀ s, P s → Q a s) : Tells R Q P (pure a : Prog σ α) := h

theorem tells_bind {f : α → Prog σ β} {Q : β → σ → Prop} {M : α → σ → Prop} (hp : Tells R M P p)
    (hf : ∀ a, Tells R Q (M a) (f a)) : Tells R Q P (p >>= f) := by
  induction p generalizing P with
  | ret a => exact (hf a).weaken hp
  | step act next ih =>
    intro s
    obtain ⟨hR, P', hst, hP', hn⟩ := hp s
    exact ⟨hR, P', hst, hP', ih s hn⟩

theorem tells_atomic {x : σ → α × σ} (hQ : ∀ a, Stable R (Q a))
    (h : ∀ s, R s (x s).2 ∧ (P s → Q (x s).1 (x s).2)) : Tells R Q P (atomic x) :=
  fun s => ⟨(h s).1, Q (x s).1, hQ _, (h s).2, fun _ hq => hq⟩

theorem tells_look {f : σ → α} (hR : ∀ s, R s s) (hQ : ∀ a, Stable R (Q a))
    (h : ∀ s, P s → Q (f s) s) : Tells R Q P (look f) :=
  tells_atomic hQ fun s => ⟨hR s, h s⟩

theorem tells_of_within (h : p.Within R) (hP : Stable R P) : Tells R (fun _ => P) P p := by
  induction p with
  | ret => exact fun s hs => hs
  | step act next ih =>
    intro s
    obtain ⟨_, hR, hn⟩ := h s
    exact ⟨hR, P, hP, hP _ _ hR, ih s hn⟩

end Prog

namespace Pool

/-- Every call in flight knows something that leads to its postcondition. -/
def Safe (R : σ → σ → Prop) (Q : ι → α → σ → Prop) (p : Pool ι σ α) : Prop :=
  ∀ t ∈ p.calls, ∃ P, Stable R P ∧ P p.state ∧ t.2.Sat R (Q t.1) P

theorem safe_start (R : σ → σ → Prop) (Q : ι → α → σ → Prop) (s : σ) :
    Safe R Q (start s : Pool ι σ α) := by
  intro t ht
  simp [start] at ht

variable {prog : ι → Prog σ α} {Q : ι → α → σ → Prop} {ok : ι → σ → Prop} {p' : Pool ι σ α}

/-- **Interleavings of programs that tolerate each other.** -/
theorem reach_safe_of {I : σ → Prop} (hI : Stable R I) (hprog : ∀ c, (prog c).Sat R (Q c) I)
    {p : Pool ι σ α} (hr : ReachIf prog ok p p') (hp : I p.state) (h : Safe R Q p) :
    I p'.state ∧ Safe R Q p' := by
  induction hr with
  | refl => exact ⟨hp, h⟩
  | tail _ hs ih =>
    obtain ⟨hIs, ih⟩ := ih
    cases hs with
    | call c =>
      refine ⟨hIs, fun t ht => ?_⟩
      rcases List.mem_cons.mp ht with rfl | ht
      · exact ⟨_, hI, hIs, hprog c⟩
      · exact ih t ht
    | run s pre c act next =>
      obtain ⟨P, -, hP, hsat⟩ := ih (c, .step act next) (by simp)
      obtain ⟨hR, P', hst, hP', hn⟩ := hsat s hP
      refine ⟨hI _ _ hR hIs, forall_mem_replace ih ?_ ⟨P', hst, hP', hn⟩⟩
      rintro t ⟨P, hst, hP, hsat⟩
      exact ⟨P, hst, hst _ _ hR hP, hsat⟩

theorem reach_safe (hprog : ∀ c, (prog c).Sat R (Q c) fun _ => True) {p : Pool ι σ α}
    (hr : ReachIf prog ok p p') (h : Safe R Q p) : Safe R Q p' :=
  (reach_safe_of (stable_true R) hprog hr trivial h).2

/-- A step of a pool of programs that tolerate each other is an `R`-step. -/
theorem Safe.step {p : Pool ι σ α} (h : Safe R Q p) (hs : Step prog ok p p') :
    p'.state = p.state ∨ R p.state p'.state := by
  cases hs with
  | call => exact .inl rfl
  | run s pre c act next =>
    obtain ⟨P, -, hP, hsat⟩ := h (c, .step act next) (by simp)
    exact .inr (hsat s hP).1

/-- A run of such a pool is a run of `R`-steps. -/
theorem reach_rely {I : σ → Prop} (hI : Stable R I) (hprog : ∀ c, (prog c).Sat R (Q c) I)
    {p : Pool ι σ α} (hr : ReachIf prog ok p p') (hp : I p.state) (h : Safe R Q p) :
    Relation.ReflTransGen R p.state p'.state := by
  induction hr with
  | refl => exact .refl
  | tail hr hs ih =>
    rcases (reach_safe_of hI hprog hr hp h).2.step hs with he | hR
    · rw [he]
      exact ih
    · exact ih.tail hR

theorem Safe.returned {p : Pool ι σ α} (h : Safe R Q p) {c : ι} {a : α}
    (hc : (c, .ret a) ∈ p.calls) : Q c a p.state := by
  obtain ⟨P, -, hP, hsat⟩ := h _ hc
  exact hsat _ hP

end Pool

end UnifyConsole.Lib
