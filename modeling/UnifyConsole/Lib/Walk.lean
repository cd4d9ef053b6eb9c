import Mathlib

/-!
# A walk over linked records

A recursive walk that follows the keys named in a record, remembers every key it has seen, and
collects the records it finds.  A key without a record is passed over.

The walk descends at most `fuel` levels.  Every level enters a key that has a record and has
not been seen, so one level more than there are keys with records is enough (`visited_visit`).
`collect_spec` says what such a walk collects: every record that can be reached, once.
-/

namespace UnifyConsole.Lib

open List

/-- The keys seen and the records collected so far. -/
structure Walk (κ α : Type) where
  seen : List κ
  result : List α

namespace Walk

variable {κ α : Type} [DecidableEq κ] (node : κ → Option α) (next : α → List κ)

/-- Enter one key, where `descend` follows the keys of its record. -/
def enter (descend : List κ → Walk κ α → Walk κ α) (w : Walk κ α) (k : κ) : Walk κ α :=
  if k ∈ w.seen then w
  else
    match node k with
    | none => ⟨k :: w.seen, w.result⟩
    | some a => descend (next a) ⟨k :: w.seen, w.result ++ [a]⟩

/-- Follow some keys, at most `fuel` levels deep. -/
def visit : Nat → List κ → Walk κ α → Walk κ α
  | 0, _, w => w
  | fuel + 1, ks, w => ks.foldl (enter node next (visit fuel)) w

/-- The records that are reached from some keys, for a walk that may meet `size` records. -/
def collect (size : Nat) (ks : List κ) : List α := (visit node next (size + 1) ks ⟨[], []⟩).result

/-- The keys that are reached from `ks`. -/
inductive Leads (ks : List κ) : κ → Prop
  | start {k : κ} (h : k ∈ ks) : Leads ks k
  | step {k k' : κ} {a : α} (h : Leads ks k) (hk : node k = some a) (h' : k' ∈ next a) : Leads ks k'

section

variable {node} {next}

omit [DecidableEq κ] in
theorem Leads.mono {ks ks' : List κ} (h : ∀ k ∈ ks, Leads node next ks' k) {k : κ}
    (hk : Leads node next ks k) : Leads node next ks' k := by
  induction hk with
  | start hk => exact h _ hk
  | step _ hnode hnext ih => exact .step ih hnode hnext

/-- The keys with a record that have not been seen. -/
def left (known : List κ) (w : Walk κ α) : Nat :=
  (known.filter fun k => decide (k ∉ w.seen)).length

theorem left_mono {known : List κ} {w w' : Walk κ α} (h : w.seen ⊆ w'.seen) :
    left known w' ≤ left known w := by
  refine (monotone_filter_right known fun k hk => ?_).length_le
  simp only [decide_eq_true_eq] at hk ⊢
  exact fun hmem => hk (h hmem)

theorem left_lt {known : List κ} {w w' : Walk κ α} {k : κ} (hk : k ∈ known) (hnew : k ∉ w.seen)
    (h : ∀ x, x ∈ w'.seen ↔ x = k ∨ x ∈ w.seen) : left known w' < left known w := by
  have hsub : (known.filter fun x => decide (x ∉ w'.seen)).Sublist
      (known.filter fun x => decide (x ∉ w.seen)) := by
    refine monotone_filter_right known fun x hx => ?_
    simp only [decide_eq_true_eq] at hx ⊢
    exact fun hmem => hx ((h x).mpr (.inr hmem))
  refine lt_of_le_of_ne hsub.length_le fun heq => ?_
  have hmem : k ∈ known.filter (fun x => decide (x ∉ w.seen)) :=
    mem_filter.mpr ⟨hk, by simpa using hnew⟩
  rw [← hsub.eq_of_length heq, mem_filter, decide_eq_true_eq] at hmem
  exact hmem.2 ((h k).mpr (.inl rfl))

/-- What a walk over the keys `ks` has done. -/
structure Visited (node : κ → Option α) (next : α → List κ) (ks : List κ) (w w' : Walk κ α) :
    Prop where
  seen : w.seen ⊆ w'.seen
  starts : ks ⊆ w'.seen
  closed : ∀ k ∈ w'.seen, k ∉ w.seen → ∀ a, node k = some a → next a ⊆ w'.seen
  sound : ∀ k ∈ w'.seen, k ∉ w.seen → Leads node next ks k
  result : ∃ new : List κ, new.Nodup ∧ w'.result = w.result ++ new.filterMap node ∧
    ∀ k, k ∈ new ↔ k ∈ w'.seen ∧ k ∉ w.seen ∧ (node k).isSome = true

omit [DecidableEq κ] in
/-- Keys that were seen before. -/
theorem Visited.skipped {ks : List κ} {w : Walk κ α} (h : ks ⊆ w.seen) :
    Visited node next ks w w where
  seen := fun _ h => h
  starts := h
  closed := fun _ h h' => absurd h h'
  sound := fun _ h h' => absurd h h'
  result := ⟨[], nodup_nil, by simp, fun _ =>
    ⟨fun h => absurd h not_mem_nil, fun h => absurd h.1 h.2.1⟩⟩

theorem Visited.cons {k : κ} {ks : List κ} {w w₁ w₂ : Walk κ α}
    (h₁ : Visited node next [k] w w₁) (h₂ : Visited node next ks w₁ w₂) :
    Visited node next (k :: ks) w w₂ where
  seen := fun _ h => h₂.seen (h₁.seen h)
  starts := by
    intro x hx
    rcases mem_cons.mp hx with rfl | hx
    · exact h₂.seen (h₁.starts mem_cons_self)
    · exact h₂.starts hx
  closed := by
    intro x hx hnew a ha
    by_cases hx₁ : x ∈ w₁.seen
    · exact fun y hy => h₂.seen (h₁.closed x hx₁ hnew a ha hy)
    · exact h₂.closed x hx hx₁ a ha
  sound := by
    intro x hx hnew
    by_cases hx₁ : x ∈ w₁.seen
    · exact (h₁.sound x hx₁ hnew).mono
        (fun y hy => .start (mem_singleton.mp hy ▸ mem_cons_self))
    · exact (h₂.sound x hx hx₁).mono (fun y hy => .start (mem_cons_of_mem _ hy))
  result := by
    obtain ⟨new₁, hnd₁, hres₁, hmem₁⟩ := h₁.result
    obtain ⟨new₂, hnd₂, hres₂, hmem₂⟩ := h₂.result
    refine ⟨new₁ ++ new₂, nodup_append.mpr ⟨hnd₁, hnd₂, ?_⟩, ?_, fun x => ?_⟩
    · intro x hx y hy hxy
      exact ((hmem₂ y).mp hy).2.1 (hxy ▸ ((hmem₁ x).mp hx).1)
    · rw [hres₂, hres₁, filterMap_append, append_assoc]
    rw [mem_append, hmem₁, hmem₂]
    constructor
    · rintro (⟨hx, hnew, hsome⟩ | ⟨hx, hnew, hsome⟩)
      · exact ⟨h₂.seen hx, hnew, hsome⟩
      · exact ⟨hx, fun h => hnew (h₁.seen h), hsome⟩
    rintro ⟨hx, hnew, hsome⟩
    by_cases hx₁ : x ∈ w₁.seen
    · exact .inl ⟨hx₁, hnew, hsome⟩
    · exact .inr ⟨hx, hx₁, hsome⟩

/-- A key with a record, after the walk over the keys of the record. -/
theorem Visited.entered {k : κ} {a : α} {w w' : Walk κ α} (hnew : k ∉ w.seen)
    (ha : node k = some a)
    (h : Visited node next (next a) ⟨k :: w.seen, w.result ++ [a]⟩ w') :
    Visited node next [k] w w' where
  seen := fun _ hx => h.seen (mem_cons_of_mem _ hx)
  starts := by
    intro x hx
    rw [mem_singleton.mp hx]
    exact h.seen mem_cons_self
  closed := by
    intro x hx hxnew b hb
    by_cases hxk : x = k
    · subst hxk
      cases ha.symm.trans hb
      exact h.starts
    refine h.closed x hx (fun hmem => ?_) b hb
    rcases mem_cons.mp hmem with heq | hmem
    · exact hxk heq
    · exact hxnew hmem
  sound := by
    intro x hx hxnew
    by_cases hxk : x = k
    · exact .start (hxk ▸ mem_cons_self)
    refine (h.sound x hx fun hmem => ?_).mono fun y hy => ?_
    · rcases mem_cons.mp hmem with heq | hmem
      · exact hxk heq
      · exact hxnew hmem
    · exact .step (.start mem_cons_self) ha hy
  result := by
    obtain ⟨new, hnd, hres, hmem⟩ := h.result
    have hk : k ∉ new := fun hk => ((hmem k).mp hk).2.1 mem_cons_self
    refine ⟨k :: new, nodup_cons.mpr ⟨hk, hnd⟩, ?_, fun x => ?_⟩
    · rw [hres, filterMap_cons, ha, append_assoc]
      rfl
    rw [mem_cons, hmem]
    constructor
    · rintro (rfl | ⟨hx, hxnew, hsome⟩)
      · exact ⟨h.seen mem_cons_self, hnew, by rw [ha]; rfl⟩
      · exact ⟨hx, fun hx' => hxnew (mem_cons_of_mem _ hx'), hsome⟩
    rintro ⟨hx, hxnew, hsome⟩
    by_cases hxk : x = k
    · exact .inl hxk
    refine .inr ⟨hx, fun hmem' => ?_, hsome⟩
    rcases mem_cons.mp hmem' with heq | hmem'
    · exact hxk heq
    · exact hxnew hmem'

omit [DecidableEq κ] in
/-- A key without a record. -/
theorem Visited.passed {k : κ} {w : Walk κ α} (hnone : node k = none) :
    Visited node next [k] w ⟨k :: w.seen, w.result⟩ where
  seen := fun _ hx => mem_cons_of_mem _ hx
  starts := fun x hx => by
    rw [mem_singleton.mp hx]
    exact mem_cons_self
  closed := by
    intro x hx hnew a ha
    rcases mem_cons.mp hx with rfl | hx
    · exact absurd (hnone.symm.trans ha) (by simp)
    · exact absurd hx hnew
  sound := by
    intro x hx hnew
    rcases mem_cons.mp hx with rfl | hx
    · exact .start mem_cons_self
    · exact absurd hx hnew
  result := by
    refine ⟨[], nodup_nil, by simp, fun x => ⟨fun h => absurd h not_mem_nil, ?_⟩⟩
    rintro ⟨hx, hnew, hsome⟩
    rcases mem_cons.mp hx with rfl | hx
    · rw [hnone] at hsome
      cases hsome
    · exact absurd hx hnew

/-- **A walk with enough levels.** -/
theorem visited_visit {known : List κ} (hknown : ∀ k a, node k = some a → k ∈ known) :
    ∀ (fuel : Nat) (ks : List κ) (w : Walk κ α), left known w < fuel →
      Visited node next ks w (visit node next fuel ks w) := by
  intro fuel
  induction fuel with
  | zero =>
    omega
  | succ fuel ih =>
    intro ks
    induction ks with
    | nil =>
      intro w _
      exact .skipped (nil_subset _)
    | cons k ks ihks =>
      intro w h
      have hone : Visited node next [k] w (enter node next (visit node next fuel) w k) := by
        unfold enter
        split
        · rename_i hseen
          exact .skipped fun x hx => mem_singleton.mp hx ▸ hseen
        rename_i hseen
        cases ha : node k with
        | none => exact .passed ha
        | some a =>
          refine .entered hseen ha (ih _ _ ?_)
          have hlt : left known (⟨k :: w.seen, w.result ++ [a]⟩ : Walk κ α) < left known w :=
            left_lt (hknown k a ha) hseen fun x => mem_cons
          omega
      exact hone.cons (ihks _ (lt_of_le_of_lt (left_mono hone.seen) h))

/-- **What a walk collects**: the record of every key that is reached, once. -/
theorem collect_spec {known : List κ} (hknown : ∀ k a, node k = some a → k ∈ known) (ks : List κ) :
    ∃ keys : List κ, keys.Nodup ∧ collect node next known.length ks = keys.filterMap node ∧
      ∀ k, k ∈ keys ↔ Leads node next ks k ∧ (node k).isSome = true := by
  have hleft : left known (⟨[], []⟩ : Walk κ α) < known.length + 1 :=
    Nat.lt_succ_of_le (length_filter_le _ _)
  have h : Visited node next ks ⟨[], []⟩ (visit node next (known.length + 1) ks ⟨[], []⟩) :=
    visited_visit hknown (known.length + 1) ks ⟨[], []⟩ hleft
  obtain ⟨new, hnd, hres, hmem⟩ := h.result
  refine ⟨new, hnd, hres, fun k => (hmem k).trans ⟨?_, ?_⟩⟩
  · rintro ⟨hk, hnew, hsome⟩
    exact ⟨h.sound k hk hnew, hsome⟩
  rintro ⟨hleads, hsome⟩
  refine ⟨?_, not_mem_nil, hsome⟩
  induction hleads with
  | start hk => exact h.starts hk
  | step _ hnode hnext ih =>
    exact h.closed _ (ih (by rw [hnode]; rfl)) not_mem_nil _ hnode hnext

end

end Walk

end UnifyConsole.Lib
