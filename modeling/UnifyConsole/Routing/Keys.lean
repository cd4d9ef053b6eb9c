import Mathlib
import UnifyConsole.Routing.Channels

/-!
# Keys in turn

`GetNextEnabledKey` of `model/channel.go`.  In polling mode it walks the key
positions from the stored index on, round once, and stores the position after the
one it returns.  What it will return is a queue: the enabled positions in the
order of that walk.  A call returns the head and sends it to the back
(`queue_advance`), so calls go round the queue.

The channel is the one the memory cache holds, so `CacheGetChannelInfo` reads its
own polling index.
-/

namespace UnifyConsole.Routing

open List

inductive MultiKeyMode where
  | random
  | polling
  | other
deriving DecidableEq

structure KeyChannel extends Channel where
  key : String
  multiKeyMode : MultiKeyMode
  multiKeyPollingIndex : Int

inductive KeyError where
  | noKeys
  | noEnabledKeys
deriving DecidableEq

namespace KeyChannel

variable (c : KeyChannel)

/-- `getStatus`, compared with enabled. -/
def enabled (idx : ℕ) : Bool := (c.statusList idx).getD .enabled = .enabled

def enabledIdx : List ℕ := (range c.keys.length).filter c.enabled

def keyAt (idx : ℕ) : String := c.keys.getD idx ""

/-- The stored index, or `0` when it is out of range. -/
def start : ℕ :=
  if c.multiKeyPollingIndex < 0 ∨ c.keys.length ≤ c.multiKeyPollingIndex then 0
  else c.multiKeyPollingIndex.toNat

def pollOrder : List ℕ := (range c.keys.length).map fun i => (c.start + i) % c.keys.length

def setIndex (i : Int) : KeyChannel := { c with multiKeyPollingIndex := i }

/-- `GetNextEnabledKey`, with `rand.Intn`. -/
def getNextEnabledKey (intn : ℕ → ℕ) : Except KeyError (String × ℕ) × KeyChannel :=
  if c.isMultiKey = false then (.ok (c.key, 0), c)
  else if c.keys = [] then (.error .noKeys, c)
  else match c.enabledIdx with
    | [] => (.error .noEnabledKeys, c)
    | first :: _ =>
      match c.multiKeyMode with
      | .random =>
        let selectedIdx := c.enabledIdx.getD (intn c.enabledIdx.length) first
        (.ok (c.keyAt selectedIdx, selectedIdx), c)
      | .polling =>
        match c.pollOrder.find? c.enabled with
        | some idx => (.ok (c.keyAt idx, idx), c.setIndex ((idx + 1) % c.keys.length : ℕ))
        | none => (.ok (c.keyAt first, first), c)
      | .other => (.ok (c.keyAt first, first), c)

def setStatuses (status : ℕ → Option ChannelStatus) : KeyChannel := { c with statusList := status }

/-- Calls one after the other, each with the statuses that hold then. -/
def calls (intn : ℕ → ℕ) (statuses : List (ℕ → Option ChannelStatus)) :
    List (Except KeyError (String × ℕ)) × KeyChannel :=
  statuses.foldl (fun s status =>
    let r := (s.2.setStatuses status).getNextEnabledKey intn
    (s.1 ++ [r.1], r.2)) ([], c)

/-- The first enabled position at or cyclically after `i`. -/
def FirstFrom (i p : ℕ) : Prop :=
  ∃ d < c.keys.length, p = (i + d) % c.keys.length ∧ c.enabled p = true ∧
    ∀ d' < d, c.enabled ((i + d') % c.keys.length) = false

/-- The enabled positions in the order of the loop. -/
def queue : List ℕ := c.pollOrder.filter c.enabled

/-! ### One call -/

variable {c : KeyChannel} (intn : ℕ → ℕ) {p : ℕ}

theorem start_of_index (hi : c.multiKeyPollingIndex = p) (h : p < c.keys.length) : c.start = p := by
  rw [start, hi, if_neg (by omega), Int.toNat_natCast]

theorem pollOrder_eq : c.pollOrder = (range c.keys.length).rotate c.start := by
  refine ext_getElem (by simp [pollOrder]) fun i _ _ => ?_
  simp [pollOrder, getElem_rotate, Nat.add_comm]

theorem queue_isRotated : c.queue ~r c.enabledIdx := by
  rw [queue, pollOrder_eq, enabledIdx, rotate_eq_drop_append_take_mod, filter_append]
  conv_rhs => rw [← take_append_drop (c.start % (range c.keys.length).length)
    (range c.keys.length), filter_append]
  exact isRotated_append

/-- A polling call on a channel with an enabled key. -/
theorem poll_spec (hmulti : c.isMultiKey = true) (hmode : c.multiKeyMode = .polling)
    (hq : c.queue.head? = some p) : c.getNextEnabledKey intn =
      (.ok (c.keyAt p, p), c.setIndex ((p + 1) % c.keys.length : ℕ)) := by
  rw [queue, head?_filter] at hq
  have hp := mem_of_find?_eq_some hq
  have hmem : p ∈ c.enabledIdx := by
    rw [pollOrder_eq, mem_rotate] at hp
    exact mem_filter.mpr ⟨hp, find?_some hq⟩
  have hkeys : c.keys ≠ [] := by
    rintro h
    simp [pollOrder, h] at hp
  unfold getNextEnabledKey
  rw [if_neg (by simp [hmulti]), if_neg hkeys]
  cases he : c.enabledIdx with
  | nil => simp [he] at hmem
  | cons => simp only [hmode, hq]

/-- **A call sends the head of the queue to its back.** -/
theorem queue_advance (hq : c.queue.head? = some p) :
    (c.setIndex ((p + 1) % c.keys.length : ℕ)).queue = c.queue.rotate 1 := by
  rw [queue, head?_filter, find?_eq_some_iff_append] at hq
  obtain ⟨hp, before, after, hsplit, hoff⟩ := hq
  have hbefore : before.filter c.enabled = [] := by
    rw [filter_eq_nil_iff]
    exact fun x hx => by simpa using hoff x hx
  have hlen : c.keys.length = before.length + (after.length + 1) := by
    have := congrArg length hsplit
    simpa [pollOrder] using this
  have hidx : p = (c.start + before.length) % c.keys.length := by
    have hget : c.pollOrder[before.length]? = some p := by simp [hsplit]
    rw [pollOrder, getElem?_map, getElem?_range (by omega)] at hget
    simpa using hget.symm
  have horder : (c.setIndex ((p + 1) % c.keys.length : ℕ)).pollOrder =
      after ++ (before ++ [p]) := by
    rw [pollOrder_eq, start_of_index (c := c.setIndex _) rfl (Nat.mod_lt (p + 1) (by omega))]
    show (range c.keys.length).rotate _ = _
    rw [show (p + 1) % c.keys.length = (c.start + (before.length + 1)) % (range c.keys.length).length
      by rw [length_range, hidx, Nat.mod_add_mod, Nat.add_assoc], rotate_mod, ← rotate_rotate,
      ← pollOrder_eq, hsplit, append_cons, show before.length + 1 = (before ++ [p]).length by simp,
      rotate_append_length_eq]
  rw [queue, horder, queue, hsplit]
  show filter c.enabled _ = _
  simp [filter_append, hbefore, hp]

theorem poll_none (hmulti : c.isMultiKey = true) (hq : c.queue = []) :
    ∃ e, c.getNextEnabledKey intn = (.error e, c) := by
  have he : c.enabledIdx = [] := isRotated_nil_iff.mp (hq ▸ queue_isRotated.symm)
  unfold getNextEnabledKey
  rw [if_neg (by simp [hmulti]), he]
  split
  · exact ⟨_, rfl⟩
  · exact ⟨_, rfl⟩

/-- A call with the index after position `q`. -/
theorem poll_after {q : ℕ} (hmulti : c.isMultiKey = true) (hmode : c.multiKeyMode = .polling)
    (hne : c.enabledIdx ≠ []) (hi : c.multiKeyPollingIndex = ((q + 1) % c.keys.length : ℕ)) :
    ∃ p, (c.getNextEnabledKey intn).1 = .ok (c.keyAt p, p) ∧ c.FirstFrom (q + 1) p := by
  have hpos : 0 < c.keys.length := by
    refine Nat.pos_of_ne_zero fun h => hne ?_
    rw [enabledIdx, h]
    rfl
  cases hq : c.queue with
  | nil => exact absurd (isRotated_nil_iff.mp (hq ▸ c.queue_isRotated.symm)) hne
  | cons p =>
    replace hq : c.queue.head? = some p := by rw [hq, head?_cons]
    refine ⟨p, congrArg Prod.fst (poll_spec intn hmulti hmode hq), ?_⟩
    rw [queue, head?_filter, find?_eq_some_iff_getElem] at hq
    obtain ⟨hp, d, hd, hget, hoff⟩ := hq
    simp only [pollOrder, getElem_map, getElem_range, start_of_index hi (Nat.mod_lt _ hpos),
      Nat.mod_add_mod] at hget hoff
    exact ⟨d, by simpa [pollOrder] using hd, hget.symm, hp, fun d' h => by simpa using hoff d' h⟩

/-! ### Many calls -/

variable {statuses : List (ℕ → Option ChannelStatus)} {status : ℕ → Option ChannelStatus}

/-- The last key that some calls returned, with its position. -/
def lastReturned (results : List (Except KeyError (String × ℕ))) : Option (String × ℕ) :=
  results.reverse.findSome? Except.toOption

variable {c₁ c₂ : KeyChannel} {r : Except KeyError (String × ℕ)}

theorem calls_append (h₁ : (c.calls intn statuses).2.setStatuses status = c₁)
    (h₂ : c₁.getNextEnabledKey intn = (r, c₂)) :
    c.calls intn (statuses ++ [status]) = ((c.calls intn statuses).1 ++ [r], c₂) := by
  rw [calls, foldl_append, ← calls]
  simp only [foldl_cons, foldl_nil, h₁, h₂]

section Polling

variable (hmulti : c.isMultiKey = true) (hmode : c.multiKeyMode = .polling)

include hmulti hmode

/-- What polling calls leave: other statuses and, after a position returned, the index after it. -/
theorem calls_spec (statuses : List (ℕ → Option ChannelStatus)) :
    ∃ status i, (c.calls intn statuses).2 = (c.setStatuses status).setIndex i ∧
      ∀ key q, lastReturned (c.calls intn statuses).1 = some (key, q) →
        i = ((q + 1) % c.keys.length : ℕ) := by
  induction statuses using reverseRecOn with
  | nil => exact ⟨c.statusList, c.multiKeyPollingIndex, rfl, by simp [calls, lastReturned]⟩
  | append_singleton statuses status ih =>
    obtain ⟨status', i, hc, hlast⟩ := ih
    have hc : (c.calls intn statuses).2.setStatuses status =
        (c.setStatuses status).setIndex i := by
      rw [hc]
      rfl
    cases hq : ((c.setStatuses status).setIndex i).queue with
    | nil =>
      obtain ⟨e, he⟩ := poll_none intn (c := (c.setStatuses status).setIndex i) hmulti hq
      rw [calls_append intn hc he]
      refine ⟨status, i, rfl, fun key q h => hlast key q ?_⟩
      rw [lastReturned, reverse_append] at h
      exact h
    | cons =>
      rw [calls_append intn hc (poll_spec intn hmulti hmode (by rw [hq]; rfl))]
      refine ⟨status, _, rfl, fun key q h => ?_⟩
      rw [lastReturned, reverse_append] at h
      obtain ⟨-, rfl⟩ := Prod.mk.inj (Option.some.inj h)
      rfl

/-- While the statuses stay, calls go through the queue. -/
theorem calls_replicate (status : ℕ → Option ChannelStatus) :
    ∀ j ≤ (c.setStatuses status).queue.length, ∃ status' i,
    c.calls intn (replicate j status) =
      (((c.setStatuses status).queue.take j).map (fun p => .ok (c.keyAt p, p)),
        (c.setStatuses status').setIndex i) ∧
    ((c.setStatuses status).setIndex i).queue = (c.setStatuses status).queue.rotate j := by
  intro j
  induction j with
  | zero => exact fun _ => ⟨c.statusList, c.multiKeyPollingIndex, rfl, by rw [rotate_zero]; rfl⟩
  | succ j ih =>
    intro hj
    obtain ⟨status', i, hc, hqueue⟩ := ih (by omega)
    have hhead : ((c.setStatuses status).setIndex i).queue.head? =
        some (c.setStatuses status).queue[j] := by
      rw [hqueue, head?_rotate (by omega), getElem?_eq_getElem]
    have hstate : (c.calls intn (replicate j status)).2.setStatuses status =
        (c.setStatuses status).setIndex i := by
      rw [hc]
      rfl
    rw [replicate_succ', calls_append intn hstate (poll_spec intn hmulti hmode hhead), hc,
      take_succ_eq_append_getElem (by omega), map_append]
    refine ⟨status, _, rfl, ?_⟩
    exact (queue_advance hhead).trans (by rw [hqueue, rotate_rotate])

/-- **Polling uses the enabled keys in turn**, once each in cyclic order while the statuses stay;
and a call returns the first enabled position from the one after the last on. -/
theorem polling_in_turn (statuses : List (ℕ → Option ChannelStatus))
    (status : ℕ → Option ChannelStatus) :
    (∃ l, l ~r (c.setStatuses status).enabledIdx ∧ ((c.calls intn statuses).2.calls intn
      (replicate (c.setStatuses status).enabledIdx.length status)).1 =
        l.map fun p => .ok (c.keyAt p, p)) ∧
    ((c.setStatuses status).enabledIdx ≠ [] → ∀ key q,
      lastReturned (c.calls intn statuses).1 = some (key, q) →
      ∃ p, (((c.calls intn statuses).2.setStatuses status).getNextEnabledKey intn).1 =
          .ok (c.keyAt p, p) ∧ (c.setStatuses status).FirstFrom (q + 1) p) := by
  obtain ⟨status', i, hc, hlast⟩ := calls_spec intn hmulti hmode statuses
  rw [hc]
  have hrot := ((c.setStatuses status).setIndex i).queue_isRotated
  constructor
  · obtain ⟨_, _, hcalls, _⟩ := calls_replicate intn (c := (c.setStatuses status').setIndex i) hmulti
      hmode status _ le_rfl
    refine ⟨_, hrot, ?_⟩
    rw [show (c.setStatuses status).enabledIdx.length = _ from hrot.perm.length_eq.symm]
    exact (congrArg Prod.fst hcalls).trans (by rw [take_length]; rfl)
  · intro hne key q hq
    obtain rfl := hlast key q hq
    exact poll_after intn (c := (c.setStatuses status).setIndex _) hmulti hmode hne rfl

end Polling

def threeKeys : KeyChannel where
  id := 1
  status := .enabled
  keys := ["a", "b", "c"]
  isMultiKey := true
  statusList i := if i = 1 then some .autoDisabled else none
  priority := 0
  weight := 0
  groups := []
  models := []
  key := "a\nb\nc"
  multiKeyMode := .polling
  multiKeyPollingIndex := -7

theorem polling_in_turn_threeKeys : threeKeys.isMultiKey = true ∧
    threeKeys.multiKeyMode = .polling ∧ (∃ l, l ~r [0, 2] ∧
      (threeKeys.calls id [threeKeys.statusList, threeKeys.statusList]).1 =
        l.map fun p => .ok (threeKeys.keyAt p, p)) :=
  ⟨rfl, rfl, (polling_in_turn id (c := threeKeys) rfl rfl [] threeKeys.statusList).1⟩

end KeyChannel

end UnifyConsole.Routing
