import Mathlib

/-!
# Rows gathered by key

A loop over rows that keeps one entry for each key: the first row of a key makes its entry,
and every row is added to the entry of its key.  `tally` is that loop, with the entries in
the order in which their keys first came up.

`get?_tally` says what the loop leaves under a key: the rows of that key, added one after
the other to what the first of them made.  `sum_tally` says what the entries add up to
when an entry keeps the tag that its first row gave it: every row counts under the tag of
the first row of its key, which is not always its own.
-/

namespace UnifyConsole.Lib

open List Option

variable {α β κ : Type} [DecidableEq κ]

def get? : List (κ × β) → κ → Option β
  | [], _ => none
  | e :: m, k => if e.1 = k then some e.2 else get? m k

/-- Change the entry of a key; a key without an entry starts from `new`. -/
def upsert (k : κ) (new : β) (f : β → β) : List (κ × β) → List (κ × β)
  | [] => [(k, f new)]
  | e :: m => if e.1 = k then (e.1, f e.2) :: m else e :: upsert k new f m

def tally (key : α → κ) (new : α → β) (add : α → β → β) (rows : List α) : List (κ × β) :=
  rows.foldl (fun m a => upsert (key a) (new a) (add a) m) []

/-! ### One row -/

theorem get?_upsert (k : κ) (new : β) (f : β → β) (m : List (κ × β)) (k' : κ) :
    get? (upsert k new f m) k' = if k = k' then some (f ((get? m k).getD new)) else get? m k' := by
  induction m with
  | nil => simp only [upsert, get?, getD_none]
  | cons e m ih =>
    unfold upsert
    by_cases he : e.1 = k
    · rw [if_pos he]
      simp only [get?, he, if_true, getD_some]
      by_cases hk : k = k'
      · rw [if_pos hk, if_pos hk]
      · rw [if_neg hk, if_neg hk, if_neg hk]
    simp only [get?, if_neg he, ih]
    by_cases hk : k = k'
    · rw [if_pos hk, if_pos hk, if_neg (fun h => he (h.trans hk.symm))]
    · rw [if_neg hk, if_neg hk]

theorem keys_upsert (k : κ) (new : β) (f : β → β) (m : List (κ × β)) :
    (upsert k new f m).map Prod.fst =
      if k ∈ m.map Prod.fst then m.map Prod.fst else m.map Prod.fst ++ [k] := by
  induction m with
  | nil => simp [upsert]
  | cons e m ih =>
    unfold upsert
    by_cases he : e.1 = k
    · rw [if_pos he]
      simp [he]
    rw [if_neg he, map_cons, map_cons, ih]
    have hk : k ≠ e.1 := fun h => he h.symm
    by_cases hmem : k ∈ m.map Prod.fst
    · rw [if_pos hmem, if_pos (mem_cons_of_mem _ hmem)]
    · rw [if_neg hmem, if_neg (by rw [mem_cons]; rintro (h | h); exacts [hk h, hmem h])]
      rfl

theorem nodup_keys_upsert {k : κ} {new : β} {f : β → β} {m : List (κ × β)}
    (h : (m.map Prod.fst).Nodup) : ((upsert k new f m).map Prod.fst).Nodup := by
  rw [keys_upsert]
  split
  · exact h
  rename_i hk
  exact nodup_append.mpr ⟨h, nodup_singleton k, fun a ha b hb hab => by
    rw [mem_singleton] at hb
    exact hk (hb ▸ hab ▸ ha)⟩

theorem mem_iff_get? {m : List (κ × β)} (h : (m.map Prod.fst).Nodup) (k : κ) (b : β) :
    (k, b) ∈ m ↔ get? m k = some b := by
  induction m with
  | nil => simp [get?]
  | cons e m ih =>
    obtain ⟨hfst, hrest⟩ := nodup_cons.mp h
    unfold get?
    by_cases he : e.1 = k
    · rw [if_pos he]
      constructor
      · intro hmem
        rcases mem_cons.mp hmem with rfl | hmem
        · rfl
        · exact absurd (mem_map_of_mem hmem) (he ▸ hfst)
      · intro hb
        cases hb
        exact he ▸ mem_cons_self
    · rw [if_neg he, ← ih hrest, mem_cons]
      refine or_iff_right fun heq => he ?_
      rw [← heq]

/-! ### All rows -/

section Tally

variable {key : α → κ} {new : α → β} {add : α → β → β}

theorem tally_append_singleton (rows : List α) (a : α) :
    tally key new add (rows ++ [a]) = upsert (key a) (new a) (add a) (tally key new add rows) := by
  unfold tally
  rw [foldl_append]
  rfl

/-- What the rows of one key add up to. -/
def gathered (new : α → β) (add : α → β → β) : List α → Option β
  | [] => none
  | a :: rows => some (rows.foldl (fun b x => add x b) (add a (new a)))

theorem gathered_append_singleton (rows : List α) (a : α) :
    gathered new add (rows ++ [a]) = some (add a ((gathered new add rows).getD (new a))) := by
  cases rows with
  | nil => rfl
  | cons =>
    rw [cons_append, gathered, foldl_append]
    rfl

/-- **The entry of a key** is made of the rows with that key. -/
theorem get?_tally (rows : List α) (k : κ) :
    get? (tally key new add rows) k =
      gathered new add (rows.filter fun a => decide (key a = k)) := by
  induction rows using reverseRecOn with
  | nil => rfl
  | append_singleton rows a ih =>
    rw [tally_append_singleton, get?_upsert, filter_append]
    by_cases hk : key a = k
    · subst hk
      rw [if_pos rfl, ih, filter_cons_of_pos (by simp), filter_nil,
        gathered_append_singleton]
    · rw [if_neg hk, ih, filter_cons_of_neg (by simpa using hk), filter_nil,
        append_nil]

theorem nodup_keys_tally (rows : List α) : ((tally key new add rows).map Prod.fst).Nodup := by
  induction rows using reverseRecOn with
  | nil => exact nodup_nil
  | append_singleton rows a ih =>
    rw [tally_append_singleton]
    exact nodup_keys_upsert ih

/-- What every way of adding keeps, and the first row of a key gives, an entry has. -/
theorem of_mem_tally {P : κ → β → Prop} (hnew : ∀ a, P (key a) (add a (new a)))
    (hadd : ∀ a b, P (key a) b → P (key a) (add a b)) {rows : List α} {e : κ × β}
    (he : e ∈ tally key new add rows) : P e.1 e.2 := by
  have hget := (mem_iff_get? (nodup_keys_tally rows) e.1 e.2).mp he
  induction rows using reverseRecOn generalizing e with
  | nil => cases he
  | append_singleton rows a ih =>
    rw [tally_append_singleton, get?_upsert] at hget
    split at hget
    · rename_i hk
      rw [← hk, ← Option.some.inj hget]
      cases hprev : get? (tally key new add rows) (key a) with
      | none => exact hnew a
      | some b =>
        have hmem := (mem_iff_get? (nodup_keys_tally rows) (key a) b).mpr hprev
        exact hadd a b (ih hmem hprev)
    · exact ih ((mem_iff_get? (nodup_keys_tally rows) e.1 e.2).mpr hget) hget

end Tally

/-! ### Sums -/

section Sum

variable {M τ : Type} [AddCommGroup M] {key : α → κ} {new : α → β} {add : α → β → β}

theorem sum_upsert (k : κ) (new : β) (f : β → β) (g : κ → β → M) (m : List (κ × β)) :
    ((upsert k new f m).map fun e => g e.1 e.2).sum = (m.map fun e => g e.1 e.2).sum +
      (g k (f ((get? m k).getD new)) - ((get? m k).map (g k)).getD 0) := by
  induction m with
  | nil => simp [upsert, get?]
  | cons e m ih =>
    unfold upsert get?
    by_cases he : e.1 = k
    · rw [if_pos he, if_pos he, map_cons, sum_cons, map_cons, sum_cons]
      simp only [getD_some, map_some, he]
      abel
    · rw [if_neg he, if_neg he, map_cons, sum_cons, ih, map_cons, sum_cons,
        add_assoc]

/-- The first row with the key of a row. -/
def lead (key : α → κ) (rows : List α) (a : α) : α :=
  (rows.find? fun x => decide (key x = key a)).getD a

theorem lead_append (rows : List α) {a : α} (ha : a ∈ rows) (b : α) :
    lead key (rows ++ [b]) a = lead key rows a := by
  have hsome : (rows.find? fun x => decide (key x = key a)).isSome = true := by
    rw [find?_isSome]
    exact ⟨a, ha, by simp⟩
  obtain ⟨x, hx⟩ := isSome_iff_exists.mp hsome
  unfold lead
  rw [find?_append, hx]
  rfl

theorem lead_append_self (rows : List α) (a : α) :
    lead key (rows ++ [a]) a = (rows.find? fun x => decide (key x = key a)).getD a := by
  unfold lead
  rw [find?_append]
  cases rows.find? (fun x => decide (key x = key a)) with
  | none => simp
  | some => rfl

variable (tag : β → τ) (first : α → τ)

/-- An entry has the tag of the first row of its key. -/
theorem tag_get?_tally (hnew : ∀ a, tag (new a) = first a) (hadd : ∀ a b, tag (add a b) = tag b)
    (rows : List α) (k : κ) : (get? (tally key new add rows) k).map tag =
      (rows.find? fun a => decide (key a = k)).map first := by
  induction rows using reverseRecOn with
  | nil => rfl
  | append_singleton rows a ih =>
    rw [tally_append_singleton, get?_upsert, find?_append]
    by_cases hk : key a = k
    · subst hk
      rw [if_pos rfl, map_some, hadd]
      cases hprev : get? (tally key new add rows) (key a) with
      | none =>
        rw [hprev, map_none] at ih
        rw [map_eq_none_iff.mp ih.symm, getD_none, hnew]
        simp
      | some =>
        rw [hprev, map_some] at ih
        obtain ⟨x, hx, hfirst⟩ := map_eq_some_iff.mp ih.symm
        rw [hx, getD_some, some_or, map_some, hfirst]
    · rw [if_neg hk, ih, find?_cons_of_neg (by simpa using hk), find?_nil,
        or_none]

/-- **What the entries with a tag add up to**: the rows whose key came up first with that tag. -/
theorem sum_tally [DecidableEq τ] (g : β → M) (w : α → M) (hnew : ∀ a, tag (new a) = first a)
    (hadd : ∀ a b, tag (add a b) = tag b) (hzero : ∀ a, g (new a) = 0)
    (hsum : ∀ a b, g (add a b) = g b + w a) (T : τ) (rows : List α) :
    ((tally key new add rows).map fun e => if tag e.2 = T then g e.2 else 0).sum =
      (rows.map fun a => if first (lead key rows a) = T then w a else 0).sum := by
  induction rows using reverseRecOn with
  | nil => rfl
  | append_singleton rows a ih =>
    have hlead : rows.map (fun x => if first (lead key (rows ++ [a]) x) = T then w x else 0) =
        rows.map (fun x => if first (lead key rows x) = T then w x else 0) :=
      map_congr_left fun x hx => by rw [lead_append rows hx]
    rw [tally_append_singleton, sum_upsert _ _ _ (fun _ b => if tag b = T then g b else 0), ih,
      map_append, sum_append, hlead]
    rw [map_singleton, sum_singleton, lead_append_self, hadd, hsum]
    have htag : (get? (tally key new add rows) (key a)).map tag =
        (rows.find? fun x => decide (key x = key a)).map first :=
      tag_get?_tally tag first hnew hadd rows (key a)
    cases hprev : get? (tally key new add rows) (key a) with
    | none =>
      rw [hprev, map_none] at htag
      rw [map_eq_none_iff.mp htag.symm]
      simp only [getD_none, map_none, hnew, hzero, zero_add, sub_zero]
    | some =>
      rw [hprev, map_some] at htag
      obtain ⟨x, hx, hfirst⟩ := map_eq_some_iff.mp htag.symm
      rw [hx]
      simp only [getD_some, map_some, hfirst]
      split <;> abel

end Sum

/-! ### Keys that come up once -/

section Once

variable {key : α → κ} {new : α → β} {add : α → β → β} {rows : List α}

theorem upsert_of_not_mem {k : κ} {f : β → β} {b : β} {m : List (κ × β)}
    (h : k ∉ m.map Prod.fst) : upsert k b f m = m ++ [(k, f b)] := by
  induction m with
  | nil => rfl
  | cons e m ih =>
    rw [map_cons, mem_cons, not_or] at h
    rw [upsert, if_neg (Ne.symm h.1), ih h.2]
    rfl

theorem tally_of_nodup (h : (rows.map key).Nodup) :
    tally key new add rows = rows.map (fun a => (key a, add a (new a))) := by
  induction rows using reverseRecOn with
  | nil => rfl
  | append_singleton rows a ih =>
    rw [map_append, map_singleton, nodup_append_comm, singleton_append,
      nodup_cons] at h
    rw [tally_append_singleton, ih h.2, upsert_of_not_mem, map_append, map_singleton]
    simpa using h.1

/-- There are as many entries as rows only if no key came up twice. -/
theorem length_tally (rows : List α) : (tally key new add rows).length ≤ rows.length ∧
    ((tally key new add rows).length = rows.length → (rows.map key).Nodup) := by
  induction rows using reverseRecOn with
  | nil => exact ⟨le_refl _, fun _ => nodup_nil⟩
  | append_singleton rows a ih =>
    have hlen := congrArg List.length (keys_upsert (key a) (new a) (add a) (tally key new add rows))
    rw [length_map] at hlen
    rw [tally_append_singleton, hlen, length_append, length_singleton]
    split
    · rw [length_map]
      exact ⟨by omega, fun he => by omega⟩
    rename_i hk
    rw [length_append, length_map, length_singleton]
    refine ⟨by omega, fun he => ?_⟩
    have hn := ih.2 (by omega)
    rw [tally_of_nodup hn, List.map_map] at hk
    rw [map_append, map_singleton, nodup_append_comm, singleton_append]
    exact nodup_cons.mpr ⟨hk, hn⟩

end Once

/-! ### Lists in parts -/

omit [DecidableEq κ] in
theorem eq_of_forall_take_eq {l l' : List α} (h : ∀ n, l.take n = l'.take n) : l = l' := by
  have hmax := h (max l.length l'.length)
  rwa [take_of_length_le (le_max_left _ _), take_of_length_le (le_max_right _ _)] at hmax

/-- Lists put together from parts under distinct keys agree only if the parts do. -/
theorem flatMap_keyed_inj {part part' : κ → List (κ × β)} (h : ∀ k, ∀ x ∈ part k, x.1 = k)
    (h' : ∀ k, ∀ x ∈ part' k, x.1 = k) {keys : List κ} (hkeys : keys.Nodup) :
    keys.flatMap part = keys.flatMap part' ↔ ∀ k ∈ keys, part k = part' k := by
  -- what a key has put in is found again by its key
  have hfilter : ∀ (part : κ → List (κ × β)), (∀ k, ∀ x ∈ part k, x.1 = k) →
      ∀ {k : κ} {keys : List κ}, k ∉ keys →
      (part k ++ keys.flatMap part).filter (fun x => x.1 = k) = part k := by
    intro part h k keys hk
    rw [filter_append, filter_eq_self.mpr (fun x hx => by simpa using h k x hx),
      filter_eq_nil_iff.mpr, append_nil]
    intro x hx
    obtain ⟨k', hk', hx'⟩ := mem_flatMap.mp hx
    rw [h k' x hx']
    simpa using fun he : k' = k => hk (he ▸ hk')
  induction keys with
  | nil => simp
  | cons k keys ih =>
    obtain ⟨hk, hkeys⟩ := nodup_cons.mp hkeys
    rw [flatMap_cons, flatMap_cons, forall_mem_cons]
    constructor
    · intro heq
      have hone := congrArg (filter fun x => x.1 = k) heq
      rw [hfilter part h hk, hfilter part' h' hk] at hone
      rw [hone] at heq
      exact ⟨hone, (ih hkeys).mp (append_cancel_left heq)⟩
    · rintro ⟨hone, hrest⟩
      rw [hone, (ih hkeys).mpr hrest]

/-! ### Loops that may fail -/

section Fold

variable {f : β → α → Option β} {b b' : β} {rows : List α}

/-- A loop that comes to its end has been through each of its rows. -/
theorem foldlM_split {a : α} (ha : a ∈ rows) (h : rows.foldlM f b = some b') :
    ∃ b₁ b₂ post, f b₁ a = some b₂ ∧ foldlM f b₂ post = some b' := by
  induction rows generalizing b with
  | nil => cases ha
  | cons x rows ih =>
    obtain ⟨b₁, hx, hrest⟩ := bind_eq_some_iff.mp h
    rcases mem_cons.mp ha with rfl | ha
    · exact ⟨b, b₁, rows, hx, hrest⟩
    · exact ih ha hrest

theorem foldlM_invariant {I : β → Prop} (hstep : ∀ a ∈ rows, ∀ b b', f b a = some b' → I b → I b')
    (h : rows.foldlM f b = some b') (hI : I b) : I b' := by
  induction rows generalizing b with
  | nil =>
    cases h
    exact hI
  | cons x rows ih =>
    obtain ⟨b₁, hx, hrest⟩ := bind_eq_some_iff.mp h
    exact ih (fun a ha => hstep a (mem_cons_of_mem _ ha)) hrest
      (hstep x mem_cons_self b b₁ hx hI)

end Fold

end UnifyConsole.Lib
