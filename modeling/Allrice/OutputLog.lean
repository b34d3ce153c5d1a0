/-
The output of one command as the two ends hold it: the chunks that the Bridge
journaled and the chunks that the ledger stored, both as numbered logs, and what
one write of either end does to them.
-/
import Allrice.EventLog
import Allrice.JournalWrites
import Allrice.LedgerMachine

namespace Allrice

open Tx

/-- What both ends keep of a chunk on the wire. -/
def chunkOf (output : RuntimeBridgeOutput) : OutputChunk :=
  ⟨output.sequence, output.stream, output.content⟩

def LedgerOutputRow.chunk (row : LedgerOutputRow) : OutputChunk :=
  ⟨row.sequence, row.stream, row.content⟩

/-- The chunks of an operation in the Bridge's journal. -/
def journaledChunks (disk : JournalDisk) (operationId : Uuid) :
    List OutputChunk :=
  (outputRows disk operationId).map (chunkOf ·.body)

/-- The chunks of an operation in the ledger. -/
def storedChunks (db : LedgerDb) (operationId : Uuid) : List OutputChunk :=
  (outputsOf db operationId).map LedgerOutputRow.chunk

theorem nextSequence_range (n : Nat) : nextSequence (List.range n) = n := by
  induction n with
  | zero => rfl
  | succ n ih =>
    unfold nextSequence at ih ⊢
    rw [List.range_succ, List.foldl_append, ih]
    simp

theorem nextSequence_numbered {log : List OutputChunk}
    (h : Numbered OutputChunk.sequence log) :
    nextSequence (log.map OutputChunk.sequence) = log.length := by
  rw [h, nextSequence_range]

/-- An operation that will not execute again. -/
def JournalDisk.Settled (disk : JournalDisk) (operationId : Uuid) : Prop :=
  ∃ row, disk.entries.find? operationId = some row ∧ isActive row = false

/-- The rows of a journal name the operations that they are filed under. -/
structure JournalDisk.Filed (disk : JournalDisk) : Prop where
  entries : ∀ row ∈ disk.entries.rows,
    row.dispatch.operationId = row.operationId
  outputs : ∀ row ∈ disk.outputOutbox.rows,
    row.body.attempt.operationId = row.operationId ∧
      row.body.sequence = row.sequence
  numbered : ∀ operationId,
    Numbered OutputChunk.sequence (journaledChunks disk operationId)
  receipts : ∀ row ∈ disk.outbox.rows,
    row.body.attempt.operationId = row.operationId ∧
      disk.Settled row.operationId

theorem JournalDisk.Filed.sequences {disk : JournalDisk} (h : disk.Filed)
    (operationId : Uuid) :
    (outputRows disk operationId).map (·.sequence) =
      (journaledChunks disk operationId).map OutputChunk.sequence := by
  rw [journaledChunks, List.map_map]
  apply List.map_congr_left
  intro row hrow
  exact (h.outputs row (List.mem_of_mem_filter hrow)).2.symm

variable {operationId target : Uuid} {db : LedgerDb} {row : OutputRow}

theorem mem_outputRows {disk : JournalDisk} :
    row ∈ outputRows disk operationId ↔
      row ∈ disk.outputOutbox.rows ∧ row.operationId = operationId := by
  simp [outputRows]

variable {call : JournalCall} {disk next : JournalDisk}

/-- An entry keeps its dispatch, and a new one is filed under its own. -/
theorem JournalWrite.entry (h : JournalWrite call disk next) {row : EntryRow}
    (hrow : row ∈ next.entries.rows) :
    row.dispatch.operationId = row.operationId ∨
      ∃ old ∈ disk.entries.rows,
        old.dispatch = row.dispatch ∧ old.operationId = row.operationId := by
  cases h with
  | receive hinsert =>
    rw [(Table.insert?_eq_some hinsert).2, List.mem_append,
      List.mem_singleton] at hrow
    rcases hrow with hrow | rfl
    · exact .inr ⟨row, hrow, rfl, rfl⟩
    · exact .inl rfl
  | begin hfind _ | settle hfind _ _ _ _ =>
    rcases Table.mem_replace.1 hrow with ⟨hrow, _⟩ | ⟨rfl, _⟩
    · exact .inr ⟨row, hrow, rfl, rfl⟩
    · exact .inr ⟨_, Table.mem_of_find? hfind, rfl, rfl⟩
  | _ => exact .inr ⟨row, hrow, rfl, rfl⟩

theorem find?_setState {row : EntryRow} (state : EntryState)
    (hfind : disk.entries.find? target = some row) (operationId : Uuid) :
    (disk.entries.replace { row with state }).find? operationId =
      if target = operationId then some { row with state }
      else disk.entries.find? operationId := by
  have hkey := Table.key_of_find? hfind
  by_cases hsame : target = operationId
  · subst hsame
    simp [Table.find?_replace, hkey, hfind]
  · simp [Table.find?_replace, hkey, hsame]

/-- What is settled stays settled. -/
theorem JournalWrite.settled (h : JournalWrite call disk next)
    (hsettled : disk.Settled operationId) : next.Settled operationId := by
  obtain ⟨row, hrow, hactive⟩ := hsettled
  cases h with
  | receive hinsert =>
    refine ⟨row, ?_, hactive⟩
    rw [Table.find?_insert? hinsert, if_neg, hrow]
    intro hsame
    rw [← hsame, (Table.insert?_eq_some hinsert).1] at hrow
    simp at hrow
  | @begin _ beganId began hfind hstate =>
    refine ⟨row, ?_, hactive⟩
    apply (Table.find?_replace_ne _ _).trans hrow
    intro hsame
    have hkey : beganId = operationId :=
      (Table.key_of_find? hfind).symm.trans hsame
    rw [← hkey, hfind] at hrow
    obtain rfl := Option.some.inj hrow
    simp [isActive, hstate] at hactive
  | @settle _ _ settledId found receipt state outbox hfind _ _ hstate _ =>
    have hnext := find?_setState state hfind operationId
    by_cases hsame : settledId = operationId
    · rw [if_pos hsame] at hnext
      exact ⟨_, hnext, hstate⟩
    · rw [if_neg hsame, hrow] at hnext
      exact ⟨row, hnext, hactive⟩
  | _ => exact ⟨row, hrow, hactive⟩

/-- A row of output was there, or it was acknowledged or recorded just now. -/
theorem JournalWrite.output_row (h : JournalWrite call disk next)
    (hrow : row ∈ next.outputOutbox.rows) :
    row ∈ disk.outputOutbox.rows ∨
      (call = .acknowledgeOutput row.operationId row.sequence ∧
        ∃ old ∈ disk.outputOutbox.rows,
          row = { old with delivered := true }) ∨
      (row.delivered = false ∧ ∃ entry,
        disk.entries.find? row.operationId = some entry ∧
          entry.state = .executing ∧
          ∃ chunk : OutputChunk, row.body = outputOf entry chunk ∧
            chunk.sequence = row.sequence) := by
  cases h with
  | @output _ operationId chunk entry outputOutbox hfind hstate hnext hinsert =>
    rw [(Table.insert?_eq_some hinsert).2, List.mem_append,
      List.mem_singleton] at hrow
    rcases hrow with hrow | rfl
    · exact .inl hrow
    · exact .inr (.inr ⟨rfl, entry, hfind, hstate, chunk, rfl, rfl⟩)
  | @acknowledgeOutput _ operationId sequence found hfind =>
    rcases Table.mem_replace.1 hrow with ⟨hrow, _⟩ | ⟨rfl, _⟩
    · exact .inl hrow
    · have hkey := Table.key_of_find? hfind
      obtain ⟨rfl, rfl⟩ := Prod.mk.inj hkey
      exact .inr (.inl
        ⟨rfl, found, Table.mem_of_find? hfind, rfl⟩)
  | _ => exact .inl hrow

/-- The log of an operation grows by the next chunk of an operation that is
executing, or stays. -/
theorem JournalWrite.journaled (h : JournalWrite call disk next)
    (operationId : Uuid) :
    journaledChunks next operationId = journaledChunks disk operationId ∨
      ∃ entry, ∃ chunk : OutputChunk,
        disk.entries.find? operationId = some entry ∧
        entry.state = .executing ∧
        nextSequence ((outputRows disk operationId).map (·.sequence)) =
          chunk.sequence ∧
        journaledChunks next operationId =
          journaledChunks disk operationId ++ [chunk] := by
  cases h with
  | @output _ target chunk entry outputOutbox hfind hstate hnext hinsert =>
    have hrows := (Table.insert?_eq_some hinsert).2
    by_cases htarget : target = operationId
    · subst htarget
      refine .inr ⟨entry, chunk, hfind, hstate, hnext, ?_⟩
      simp [journaledChunks, outputRows, hrows, chunkOf, outputOf]
    · refine .inl ?_
      simp [journaledChunks, outputRows, hrows, htarget]
  | @acknowledgeOutput _ target sequence found hfind =>
    refine .inl ?_
    exact Table.map_filter_replace hfind rfl rfl rfl
  | _ => exact .inl rfl

theorem JournalWrite.filed (h : JournalWrite call disk next)
    (hdisk : disk.Filed) : next.Filed := by
  constructor
  · intro row hrow
    rcases h.entry hrow with hown | ⟨old, hold, hdispatch, hid⟩
    · exact hown
    · rw [← hdispatch, ← hid]
      exact hdisk.entries old hold
  · intro row hrow
    rcases h.output_row hrow with hold | ⟨_, old, hold, rfl⟩ |
      ⟨_, entry, hentry, _, chunk, hbody, hsequence⟩
    · exact hdisk.outputs row hold
    · exact hdisk.outputs old hold
    · rw [hbody]
      refine ⟨?_, hsequence⟩
      have hfiled := hdisk.entries entry (Table.mem_of_find? hentry)
      exact hfiled.trans (Table.key_of_find? hentry)
  · intro operationId
    rcases h.journaled operationId with hsame | ⟨_, chunk, _, _, hnext, hgrown⟩
    · rw [hsame]
      exact hdisk.numbered operationId
    · rw [hgrown]
      apply (hdisk.numbered operationId).snoc
      rw [← hnext, hdisk.sequences,
        nextSequence_numbered (hdisk.numbered operationId)]
  · intro row hrow
    have hkept : row ∈ disk.outbox.rows →
        row.body.attempt.operationId = row.operationId ∧
          next.Settled row.operationId := fun hold =>
      ⟨(hdisk.receipts row hold).1, h.settled (hdisk.receipts row hold).2⟩
    cases h with
    | @settle _ _ target entry receipt state outbox hfind hreceipt hattempt
        hstate houtbox =>
        rw [(Table.insert?_eq_some houtbox).2, List.mem_append,
          List.mem_singleton] at hrow
        rcases hrow with hrow | rfl
        · exact hkept hrow
        · have hfiled := hdisk.entries entry (Table.mem_of_find? hfind)
          refine ⟨?_, { entry with state }, ?_, hstate⟩
          · rw [hattempt, hreceipt]
            exact hfiled
          · have hkey : row.operationId = target :=
              hreceipt.trans (Table.key_of_find? hfind)
            show Table.find? (disk.entries.replace _) row.operationId = _
            rw [hkey]
            exact (find?_setState state hfind target).trans (if_pos rfl)
    | @acknowledge _ receiptId acknowledged hfind =>
      rcases Table.mem_replace.1 hrow with ⟨hrow, _⟩ | ⟨rfl, _⟩
      · exact hkept hrow
      · exact hdisk.receipts acknowledged (Table.mem_of_find? hfind)
    | _ => exact hkept hrow

/-- Everything of an operation was delivered and nothing can be added. -/
def JournalDisk.Drained (disk : JournalDisk) (operationId : Uuid) : Prop :=
  disk.Settled operationId ∧
    ∀ row ∈ outputRows disk operationId, row.delivered = true

theorem JournalDisk.Settled.not_executing (h : disk.Settled operationId)
    {entry : EntryRow} (hentry : disk.entries.find? operationId = some entry) :
    entry.state ≠ .executing := by
  obtain ⟨row, hrow, hactive⟩ := h
  rw [hentry] at hrow
  obtain rfl := Option.some.inj hrow
  intro hstate
  simp [isActive, hstate] at hactive

theorem JournalWrite.drained (h : JournalWrite call disk next)
    (hdrained : disk.Drained operationId) :
    next.Drained operationId ∧
      journaledChunks next operationId = journaledChunks disk operationId := by
  obtain ⟨hsettled, hdelivered⟩ := hdrained
  refine ⟨⟨h.settled hsettled, ?_⟩, ?_⟩
  · intro row hrow
    obtain ⟨hmem, rfl⟩ := mem_outputRows.1 hrow
    rcases h.output_row hmem with hold | ⟨_, old, _, rfl⟩ |
      ⟨_, entry, hentry, hstate, _⟩
    · exact hdelivered row (mem_outputRows.2 ⟨hold, rfl⟩)
    · rfl
    · exact absurd hstate (hsettled.not_executing hentry)
  · rcases h.journaled operationId with hsame | ⟨entry, _, hentry, hstate, _⟩
    · exact hsame
    · exact absurd hstate (hsettled.not_executing hentry)

/-- A receipt that is offered for delivery belongs to a drained operation. -/
theorem pendingForDelivery_drained {limit : Nat}
    {receipt : RuntimeBridgeReceipt} (hdisk : disk.Filed)
    (h : receipt ∈ pendingForDelivery disk limit) :
    disk.Drained receipt.attempt.operationId := by
  obtain ⟨row, hrow, rfl⟩ := List.mem_map.1 h
  have hpending := List.mem_of_mem_take hrow
  simp only [List.mem_filter, Bool.and_eq_true, Bool.not_eq_true'] at hpending
  obtain ⟨hmem, ⟨_, hnone⟩, _⟩ := hpending
  obtain ⟨hid, hsettled⟩ := hdisk.receipts row hmem
  rw [hid]
  refine ⟨hsettled, ?_⟩
  intro output houtput
  obtain ⟨houtput, hsame⟩ := mem_outputRows.1 houtput
  have hdelivered := List.any_eq_false.1 hnone output houtput
  simpa [hsame] using hdelivered

theorem Writes.outputs {next : LedgerDb} (h : Writes db next) :
    next.outputs = db.outputs := by
  induction h with
  | refl => rfl
  | tail _ hstep ih =>
    rw [← ih]
    cases hstep <;> rfl

theorem Writes.stored {next : LedgerDb} (h : Writes db next)
    (operationId : Uuid) :
    storedChunks next operationId = storedChunks db operationId := by
  simp only [storedChunks, outputsOf, h.outputs]

/-- A call that stores a chunk leaves it in the log of its operation, where it
was before or comes next. -/
theorem recordLedgerOutput_stored {host : LedgerHost} {env : LedgerEnv}
    {scope : RuntimeScope} {output : RuntimeBridgeOutput} {next : LedgerDb}
    {u : Unit}
    (h : recordLedgerOutput host env scope target output db = .ok (u, next)) :
    (∀ other, other ≠ target →
      storedChunks next other = storedChunks db other) ∧
    ((storedChunks next target = storedChunks db target ∧
        chunkOf output ∈ storedChunks db target) ∨
      (storedChunks next target =
          storedChunks db target ++ [chunkOf output] ∧
        output.sequence = nextSequence
          ((storedChunks db target).map OutputChunk.sequence))) := by
  obtain ⟨_, row, _, locked, hlock, _, _, _, hstored⟩ :=
    recordLedgerOutput_eq_ok h
  have hid : row.id = target :=
    Table.key_of_find? (lockOperation_eq_ok hlock).1
  have hlocked := (lockOperation_writes _ _ _ hlock).stored
  subst hid
  rcases hstored with ⟨rfl, prior, hprior, hstream, hcontent⟩ |
    ⟨hsequence, outputs, houtputs, rfl⟩
  · refine ⟨fun other _ => hlocked other, .inl ⟨hlocked row.id, ?_⟩⟩
    rw [← hlocked]
    obtain ⟨hmem, hkey⟩ := Table.find?_eq_some_iff.1 hprior
    obtain ⟨hoperation, hnumber⟩ := Prod.mk.inj hkey
    refine List.mem_map.2 ⟨prior, ?_, ?_⟩
    · simp [outputsOf, hmem, hoperation]
    · simp [LedgerOutputRow.chunk, chunkOf, hnumber, hstream, hcontent]
  · have hrows := (Table.insert?_eq_some houtputs).2
    constructor
    · intro other hother
      rw [← hlocked other]
      simp [storedChunks, outputsOf, hrows, hother.symm]
    · refine .inr ⟨?_, ?_⟩
      · rw [← hlocked row.id]
        simp [storedChunks, outputsOf, hrows, LedgerOutputRow.chunk, chunkOf]
      · rw [hsequence, ← hlocked row.id, storedChunks, List.map_map]
        rfl

/-- The operation whose output a step of the ledger stores. -/
def LedgerAction.outputOf : LedgerAction → Option Uuid
  | .call call _ => call.outputOf
  | _ => none

/-- Every other step leaves the output of an operation alone. -/
theorem ledgerStep_stored (host : LedgerHost) (s : LedgerState)
    {action : LedgerAction} (haction : action.outputOf ≠ some operationId) :
    storedChunks (ledgerStep host s action).1.db operationId =
      storedChunks s.db operationId := by
  cases action with
  | call call env =>
    simp only [LedgerAction.outputOf] at haction
    cases hcall : call.outputOf with
    | none =>
      have hwrites : Writes s.db
          (ledgerStep host s (.call call env)).1.db :=
        LedgerState.commit_keeps (LedgerCall.run_writes host env hcall)
      exact hwrites.stored operationId
    | some target =>
      cases call with
      | recordOutput scope target' output =>
        simp only [LedgerCall.outputOf, ne_eq,
          Option.some.injEq] at haction
        simp only [ledgerStep, LedgerState.commit]
        cases hrun : (LedgerCall.recordOutput scope target' output).run
            host env s.db with
        | error error => rfl
        | ok pair =>
          obtain ⟨answer, next⟩ := pair
          obtain ⟨_, hrecord, _⟩ := map_eq_ok.1 hrun
          exact (recordLedgerOutput_stored hrecord).1 operationId
            (Ne.symm haction)
      | _ => simp [LedgerCall.outputOf] at hcall
  | scan input env picked =>
    simp only [ledgerStep]
    split
    · rfl
    · split <;> rfl
  | claimNext index env =>
    simp only [ledgerStep]
    cases s.claims[index]? with
    | none => rfl
    | some claim => exact claimStep_writes.stored operationId

end Allrice
