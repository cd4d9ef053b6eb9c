import Mathlib
import UnifyConsole.Lib.Prog
import UnifyConsole.Lib.Text
import UnifyConsole.Invoice.Statement

/-!
# Issued documents

`model/settlement.go`.  Issuing a statement freezes it as a document.  A document that turns
out to be wrong is voided or replaced, never rewritten: `ReplaceCustomerSettlements` writes a
new document that names the ones it replaces, and each of them points to its successor.

Each function is one transaction, except for `UpdateSettlementCounterparty`, which reads the
document, writes it in a second statement that spares superseded documents, and reads it
again.  `DocumentMove` says what one of their steps can do to the table.
-/

namespace UnifyConsole.Invoice

open Lib Lib.Text
open Prog Tx List

/-! ### Documents -/

/-- The status of a document; `other` is any text that the code does not know. -/
inductive SettlementStatus where
  | blank
  | issued
  | settled
  | void
  | superseded
  | other (text : String)
deriving DecidableEq

/-- `validSettlementStatus`: what a request may ask for. -/
def SettlementStatus.valid : SettlementStatus → Bool
  | .blank => true
  | .issued => true
  | .settled => true
  | .void => true
  | _ => false

/-- `model.Settlement`.  The frozen statement is absent where its text cannot be read. -/
structure Settlement where
  id : Int
  kind : StatementKind
  counterparty : String
  label : String
  periodStart : String
  periodEnd : String
  revision : Int
  supersedesIDs : List Int
  supersededByID : Int
  replacementReason : String
  replacementComplianceConfirmed : Bool
  amountUSD : ℚ
  invoicedUSD : ℚ
  invoiceRecorded : Bool
  status : SettlementStatus
  note : String
  statement : Option Statement
  pricingSnapshotDate : String
  createdAt : Int
  updatedAt : Int
deriving DecidableEq

def Settlement.isActive (s : Settlement) : Bool :=
  decide (s.status = .issued) || decide (s.status = .settled)

theorem Settlement.isActive_iff {s : Settlement} :
    s.isActive = true ↔ s.status = .issued ∨ s.status = .settled := by
  unfold Settlement.isActive
  rw [Bool.or_eq_true, decide_eq_true_iff, decide_eq_true_iff]

abbrev SettlementDb := Table Settlement.id

structure NewSettlement where
  kind : StatementKind
  counterparty : String
  label : String
  periodStart : String
  periodEnd : String
  revision : Int
  replacementReason : String
  replacementComplianceConfirmed : Bool
  amountUSD : ℚ
  invoicedUSD : ℚ
  invoiceRecorded : Bool
  status : SettlementStatus
  note : String
  statement : Option Statement
  pricingSnapshotDate : String

def NewSettlement.document (d : NewSettlement) (id revision : Int) (status : SettlementStatus)
    (supersedesIDs : List Int) (now : Int) : Settlement :=
  ⟨id, d.kind, d.counterparty, d.label, d.periodStart, d.periodEnd, revision, supersedesIDs, 0,
    d.replacementReason, d.replacementComplianceConfirmed, d.amountUSD, d.invoicedUSD,
    d.invoiceRecorded, status, d.note, d.statement, d.pricingSnapshotDate, now, now⟩

def Settlement.key (s : Settlement) : StatementKind × String × String × String :=
  (s.kind, s.counterparty, s.periodStart, s.periodEnd)

def NewSettlement.key (d : NewSettlement) : StatementKind × String × String × String :=
  (d.kind, d.counterparty, d.periodStart, d.periodEnd)

inductive SettlementError where
  | keyRequired
  | periodRequired
  | alreadyIssued
  | duplicateRevision
  | onlyCustomersReplaced
  | reasonRequired
  | nothingSelected
  | previousGone
  | previousNotActive (id : Int)
  | idRequired
  | immutable
  | recordNotFound
  | settlementNotFound (id : Int)
  | refused
deriving DecidableEq

abbrev SettlementTx := Tx SettlementDb SettlementError

abbrev SettlementProg := Prog SettlementDb

def validateSettlementKey (d : NewSettlement) : SettlementTx Unit := do
  Tx.ensure (d.counterparty ≠ "") .keyRequired
  Tx.ensure (d.periodStart ≠ "" ∧ d.periodEnd ≠ "") .periodRequired

/-- `tx.Create`: the row gets the next id; the index on key and revision is unique. -/
def createRow (d : NewSettlement) (revision : Int) (status : SettlementStatus)
    (supersedesIDs : List Int) (now : Int) : SettlementTx Settlement := do
  let id ← Tx.read Table.nextId
  let row := d.document id revision status supersedesIDs now
  Tx.writeSome (fun s =>
    if s.rows.any (fun r => decide (r.key = d.key ∧ r.revision = revision)) then none
    else s.insert? row) .duplicateRevision
  pure row

def createSettlementTx (d : NewSettlement) (now : Int) : SettlementTx Settlement := do
  validateSettlementKey d
  let revision := if d.revision = 0 then 1 else d.revision
  let count ← Tx.read (fun s =>
    s.matched fun r => decide (r.key = d.key ∧ r.revision = revision))
  Tx.ensure (count = 0) .alreadyIssued
  createRow d revision (if d.status = .blank then .issued else d.status) [] now

/-- The highest revision of a key, `0` if there is none. -/
def maxRevision (s : SettlementDb) (key : StatementKind × String × String × String) : Int :=
  (s.rows.filter fun r => decide (r.key = key)).foldl (fun m r => max m r.revision) 0

def createNextSettlementRevisionTx (d : NewSettlement) (now : Int) : SettlementTx Settlement := do
  validateSettlementKey d
  let revision ← Tx.read (fun s => maxRevision s d.key + 1)
  createRow d revision (if d.status = .blank then .issued else d.status) [] now

def replacedIDs (supersededIDs : List Int) : List Int :=
  (supersededIDs.filter fun id => decide (0 < id)).dedup.insertionSort (· ≤ ·)

def markSuperseded (s : SettlementDb) (ids : List Int) (successor now : Int) : SettlementDb :=
  s.update (fun r => decide (r.id ∈ ids))
    (fun r => { r with status := .superseded, supersededByID := successor, updatedAt := now })
    (fun _ => rfl)

def replaceCustomerSettlementsTx (d : NewSettlement) (supersededIDs : List Int) (now : Int) :
    SettlementTx Settlement := do
  validateSettlementKey d
  Tx.ensure (d.kind = .customer) .onlyCustomersReplaced
  let d := { d with replacementReason := trimSpace d.replacementReason }
  Tx.ensure (d.replacementReason ≠ "" ∧ d.replacementComplianceConfirmed = true) .reasonRequired
  let ids := replacedIDs supersededIDs
  Tx.ensure (ids ≠ []) .nothingSelected
  let previous ← Tx.read (fun s => s.rows.filter fun r => decide (r.id ∈ ids))
  Tx.ensure (previous.length = ids.length) .previousGone
  let fits (old : Settlement) : Bool := decide (old.kind = d.kind ∧ old.periodStart = d.periodStart ∧
    old.periodEnd = d.periodEnd) && old.isActive
  match previous.find? (fun old => !fits old) with
  | some old => Tx.fail (.previousNotActive old.id)
  | none => do
    let revision ← Tx.read fun s => maxRevision s d.key + 1
    let row ← createRow d revision .issued ids now
    Tx.write (fun s => markSuperseded s ids row.id now)
    pure row

def createSettlement (d : NewSettlement) (now : Int) (commits : Bool) :
    SettlementProg (Except SettlementError Settlement) :=
  Prog.transact commits .refused (createSettlementTx d now)

def createNextSettlementRevision (d : NewSettlement) (now : Int) (commits : Bool) :
    SettlementProg (Except SettlementError Settlement) :=
  Prog.transact commits .refused (createNextSettlementRevisionTx d now)

def replaceCustomerSettlements (d : NewSettlement) (supersededIDs : List Int) (now : Int)
    (commits : Bool) : SettlementProg (Except SettlementError Settlement) :=
  Prog.transact commits .refused (replaceCustomerSettlementsTx d supersededIDs now)

structure SettlementEdit where
  id : Int
  invoicedUSD : ℚ
  invoiceRecorded : Bool
  status : SettlementStatus
  note : String

def SettlementEdit.apply (e : SettlementEdit) (now : Int) (r : Settlement) : Settlement :=
  { r with
    invoicedUSD := e.invoicedUSD
    invoiceRecorded := e.invoiceRecorded
    status := e.status
    note := e.note
    updatedAt := now }

theorem SettlementEdit.id_apply (e : SettlementEdit) (now : Int) (r : Settlement) :
    (e.apply now r).id = r.id := rfl

/-- `UPDATE … WHERE id = ? AND status <> 'superseded'`, and how many rows it met. -/
def updateUnlessSuperseded (e : SettlementEdit) (now : Int) (s : SettlementDb) :
    Nat × SettlementDb :=
  (s.matched (fun r => decide (r.id = e.id ∧ r.status ≠ .superseded)),
    s.update (fun r => decide (r.id = e.id ∧ r.status ≠ .superseded)) (e.apply now)
      (e.id_apply now))

def getSettlement (id : Int) (s : SettlementDb) : Except SettlementError Settlement :=
  match s.find? id with
  | some r => .ok r
  | none => .error .recordNotFound

def updateSettlementCounterparty (e : SettlementEdit) (now : Int) :
    SettlementProg (Except SettlementError Settlement) :=
  if e.id = 0 then pure (.error .idRequired)
  else do
    let current ← Prog.look (getSettlement e.id)
    match current with
    | .error err => pure (.error err)
    | .ok current =>
      if current.status = .superseded then pure (.error .immutable)
      else do
        let affected ← Prog.atomic (updateUnlessSuperseded e now)
        if affected = 0 then pure (.error (.settlementNotFound e.id))
        else Prog.look (getSettlement e.id)

/-! ### What a step can do -/

/-- One step on the documents. -/
inductive DocumentMove : SettlementDb → SettlementDb → Prop
  | none {s : SettlementDb} : DocumentMove s s
  | create {s s' : SettlementDb} (d : NewSettlement) (revision now : Int)
      (status : SettlementStatus) (hstatus : status ≠ .superseded)
      (hfresh : ∀ r ∈ s.rows, r.key = d.key → r.revision ≠ revision)
      (h : s.insert? (d.document s.nextId revision status [] now) = some s') : DocumentMove s s'
  | replace {s s' : SettlementDb} (d : NewSettlement) (ids : List Int) (revision now : Int)
      (hids : ids.Nodup) (hpos : ∀ id ∈ ids, 0 < id)
      (hprevious : ∀ id ∈ ids, ∃ old, s.find? id = some old ∧ old.kind = d.kind ∧
        old.periodStart = d.periodStart ∧ old.periodEnd = d.periodEnd ∧ old.isActive = true)
      (hfresh : ∀ r ∈ s.rows, r.key = d.key → r.revision ≠ revision)
      (h : s.insert? (d.document s.nextId revision .issued ids now) = some s') :
      DocumentMove s (markSuperseded s' ids s.nextId now)
  | edit {s : SettlementDb} (e : SettlementEdit) (now : Int) (hstatus : e.status ≠ .superseded) :
      DocumentMove s (updateUnlessSuperseded e now s).2

section Moves

variable {d : NewSettlement} {s : SettlementDb} {now : Int} {r : Settlement × SettlementDb}

variable {ids : List Int}

/-- A row was created: it has the next id, and its revision is new for its key. -/
theorem createRow_ok {revision : Int} {status : SettlementStatus}
    (h : createRow d revision status ids now s = .ok r) :
    r.1 = d.document s.nextId revision status ids now ∧ s.insert? r.1 = some r.2 ∧
      ∀ x ∈ s.rows, x.key = d.key → x.revision ≠ revision := by
  simp only [createRow, bind_ok, writeSome_ok, pure_ok] at h
  obtain ⟨id, s₁, ⟨rfl, rfl⟩, _, s₂, ⟨s₃, hins, -, rfl⟩, rfl⟩ := h
  split at hins
  · cases hins
  · rename_i hany
    refine ⟨rfl, hins, fun x hx hkey hrev => hany ?_⟩
    exact any_eq_true.mpr ⟨x, hx, by simp [hkey, hrev]⟩

theorem validateSettlementKey_ok {u : Unit × SettlementDb}
    (h : validateSettlementKey d s = .ok u) : u.2 = s := by
  simp only [validateSettlementKey, bind_ok, ensure_ok] at h
  obtain ⟨_, _, ⟨-, -, rfl⟩, -, h⟩ := h
  rw [h]

def NewSettlement.firstStatus (d : NewSettlement) : SettlementStatus :=
  if d.status = .blank then .issued else d.status

theorem NewSettlement.firstStatus_ne (hvalid : d.status.valid = true) :
    d.firstStatus ≠ .superseded := by
  unfold NewSettlement.firstStatus
  split
  · decide
  · intro hsuperseded
    rw [hsuperseded] at hvalid
    cases hvalid

/-- What a document that replaces none leaves. -/
theorem createSettlementTx_created (h : createSettlementTx d now s = .ok r) :
    ∃ revision, (∀ x ∈ s.rows, x.key = d.key → x.revision ≠ revision) ∧
      s.insert? (d.document s.nextId revision d.firstStatus [] now) = some r.2 := by
  simp only [createSettlementTx, bind_ok, ensure_ok] at h
  obtain ⟨_, s₁, hkey, h⟩ := h
  obtain rfl : s₁ = s := validateSettlementKey_ok hkey
  obtain ⟨_, _, ⟨-, rfl⟩, _, _, ⟨-, -, rfl⟩, hcreate⟩ := h
  obtain ⟨hrow, hins, hfresh⟩ := createRow_ok hcreate
  rw [hrow] at hins
  exact ⟨_, hfresh, hins⟩

theorem createNextSettlementRevisionTx_created (h : createNextSettlementRevisionTx d now s = .ok r) :
    ∃ revision, (∀ x ∈ s.rows, x.key = d.key → x.revision ≠ revision) ∧
      s.insert? (d.document s.nextId revision d.firstStatus [] now) = some r.2 := by
  simp only [createNextSettlementRevisionTx, bind_ok, read_ok] at h
  obtain ⟨_, s₁, hkey, h⟩ := h
  obtain rfl : s₁ = s := validateSettlementKey_ok hkey
  obtain ⟨_, _, ⟨rfl, rfl⟩, hcreate⟩ := h
  obtain ⟨hrow, hins, hfresh⟩ := createRow_ok hcreate
  rw [hrow] at hins
  exact ⟨_, hfresh, hins⟩

theorem createSettlementTx_ok (hvalid : d.status.valid = true)
    (h : createSettlementTx d now s = .ok r) : DocumentMove s r.2 := by
  obtain ⟨revision, hfresh, hins⟩ := createSettlementTx_created h
  exact .create d revision now _ (NewSettlement.firstStatus_ne hvalid) hfresh hins

theorem createNextSettlementRevisionTx_ok (hvalid : d.status.valid = true)
    (h : createNextSettlementRevisionTx d now s = .ok r) : DocumentMove s r.2 := by
  obtain ⟨revision, hfresh, hins⟩ := createNextSettlementRevisionTx_created h
  exact .create d revision now _ (NewSettlement.firstStatus_ne hvalid) hfresh hins

theorem nodup_replacedIDs (ids : List Int) : (replacedIDs ids).Nodup :=
  (perm_insertionSort _ _).nodup_iff.mpr (nodup_dedup _)

theorem mem_replacedIDs {id : Int} : id ∈ replacedIDs ids ↔ id ∈ ids ∧ 0 < id := by
  unfold replacedIDs
  rw [mem_insertionSort, mem_dedup, mem_filter, decide_eq_true_eq]

/-- As many rows as ids were found, so every id has its row. -/
theorem find?_of_length_filter
    (h : (s.rows.filter fun r => decide (r.id ∈ ids)).length = ids.length) {id : Int}
    (hid : id ∈ ids) : ∃ old ∈ s.rows.filter (fun r => decide (r.id ∈ ids)), old.id = id := by
  have hsub : (s.rows.filter fun r => decide (r.id ∈ ids)).map Settlement.id ⊆ ids := by
    intro x hx
    obtain ⟨r, hr, rfl⟩ := mem_map.mp hx
    simpa using (mem_filter.mp hr).2
  have hnd : ((s.rows.filter fun r => decide (r.id ∈ ids)).map Settlement.id).Nodup :=
    s.nodup.sublist (filter_sublist.map _)
  have hperm := (subperm_of_subset hnd hsub).perm_of_length_le (by rw [length_map, h])
  exact mem_map.mp (hperm.mem_iff.mpr hid)

/-- A replacement: what it found, and what it left. -/
theorem replaceCustomerSettlementsTx_ok (h : replaceCustomerSettlementsTx d ids now s = .ok r) :
    d.kind = .customer ∧ ∃ revision reason s',
      (∀ id ∈ replacedIDs ids, ∃ old, s.find? id = some old ∧ old.kind = d.kind ∧
        old.periodStart = d.periodStart ∧ old.periodEnd = d.periodEnd ∧ old.isActive = true) ∧
      (∀ x ∈ s.rows, x.key = d.key → x.revision ≠ revision) ∧
      s.insert? (({ d with replacementReason := reason } : NewSettlement).document s.nextId
        revision .issued (replacedIDs ids) now) = some s' ∧
      r.2 = markSuperseded s' (replacedIDs ids) s.nextId now := by
  simp only [replaceCustomerSettlementsTx, bind_ok, ensure_ok] at h
  obtain ⟨_, s₁, hkey, h⟩ := h
  obtain rfl : s₁ = s := validateSettlementKey_ok hkey
  obtain ⟨_, _, ⟨hkind, -, rfl⟩, _, _, ⟨-, -, rfl⟩, _, _, ⟨-, -, rfl⟩, _, _, ⟨rfl, rfl⟩,
    _, _, ⟨hlength, -, rfl⟩, h⟩ := h
  generalize hnone : find? _ _ = unfit at h
  cases unfit with
  | some => exact absurd h (by simp [fail_ok])
  | none =>
    simp only [bind_ok, write_ok, pure_ok] at h
    obtain ⟨_, _, ⟨rfl, rfl⟩, row, s₂, hcreate, _, _, ⟨-, rfl⟩, rfl⟩ := h
    obtain ⟨hrow, hins, hfresh⟩ := createRow_ok hcreate
    dsimp only at hrow hins
    rw [hrow] at hins
    refine ⟨hkind, _, _, s₂, fun id hid => ?_, hfresh, hins, ?_⟩
    · obtain ⟨old, hmem, rfl⟩ := find?_of_length_filter hlength hid
      have hfits := find?_eq_none.mp hnone old hmem
      simp only [Bool.not_eq_true', Bool.not_eq_false, Bool.and_eq_true, decide_eq_true_eq] at hfits
      obtain ⟨⟨hk, hstart, hend⟩, hactive⟩ := hfits
      exact ⟨old, Table.find?_eq_some_iff.mpr ⟨(mem_filter.mp hmem).1, rfl⟩, hk, hstart, hend,
        hactive⟩
    · rw [hrow]
      rfl

theorem replaceCustomerSettlementsTx_move (h : replaceCustomerSettlementsTx d ids now s = .ok r) :
    DocumentMove s r.2 := by
  obtain ⟨-, revision, reason, s', hprevious, hfresh, hins, heq⟩ :=
    replaceCustomerSettlementsTx_ok h
  rw [heq]
  exact .replace { d with replacementReason := reason } _ revision now (nodup_replacedIDs ids)
    (fun id hid => (mem_replacedIDs.mp hid).2) hprevious hfresh hins

/-- The steps of an edit. -/
theorem within_updateSettlementCounterparty (e : SettlementEdit) (hstatus : e.status ≠ .superseded)
    (now : Int) : Prog.Within DocumentMove (updateSettlementCounterparty e now) := by
  unfold updateSettlementCounterparty
  split
  · exact within_pure _
  refine within_bind (within_look (fun _ => .none) _) fun current => ?_
  cases current with
  | error => exact within_pure _
  | ok =>
    dsimp only
    split
    · exact within_pure _
    refine within_bind (within_atomic fun s => .edit e now hstatus)
      (fun affected => ?_)
    split
    · exact within_pure _
    · exact within_look (fun _ => .none) _

end Moves

end UnifyConsole.Invoice
