/-
The way of a command's output from the Bridge's journal to the ledger.  Live
delivery and the flush of the outbox send chunks over one HTTP layer, which
passes a request through or fails: a request may be served late or again after
its sender gave up, and an answer may be lost after the chunk was stored.
-/
import Allrice.JournalRun
import Allrice.OutputLog

namespace Allrice

open Tx

structure DeliveryHost where
  journal : JournalHost
  ledger : LedgerHost
  /-- The digest of the canonical form of a chunk. -/
  digest : RuntimeBridgeOutput → Checksum

/-- The answer of the server to an accepted chunk. -/
structure OutputAck where
  operationId : Uuid
  sequence : Nat
  digest : Checksum

def outputAck (host : DeliveryHost) (output : RuntimeBridgeOutput) :
    OutputAck :=
  ⟨output.attempt.operationId, output.sequence, host.digest output⟩

/-- A `deliverOutput` that was called: its request, the answer of the server
once there is one, and whether the caller still waits for it. -/
structure OutputRequest where
  chunk : RuntimeBridgeOutput
  waiting : Bool
  answer : Option OutputAck

/-- Where a call of `flush` stands. -/
inductive FlushStage where
  | outputs (chunks : List RuntimeBridgeOutput)
  | sending (chunk : RuntimeBridgeOutput) (rest : List RuntimeBridgeOutput)
  | drained
  | receipts (receipts : List RuntimeBridgeReceipt)
  | reporting (receipt : RuntimeBridgeReceipt)
      (rest : List RuntimeBridgeReceipt)

/-- One Bridge, one server and what is under way between them. -/
structure DeliveryState where
  journal : JournalState
  ledger : LedgerState
  requests : List OutputRequest
  flushes : List FlushStage

def DeliveryState.init : DeliveryState := ⟨.initial, .init, [], []⟩

inductive DeliveryAction where
  /-- Any step of the journal but an acknowledgement of output, which only
  `deliverOutput` enters. -/
  | journal (action : JournalAction)
  /-- Any step of the server but an output request for this operation. -/
  | ledger (action : LedgerAction)
  /-- `deliverOutput` of a chunk that was committed to the journal. -/
  | deliverOutput (chunk : RuntimeBridgeOutput)
  /-- The server takes up a request that was sent. -/
  | serve (index : Nat) (scope : RuntimeScope) (env : LedgerEnv)
  /-- The answer reaches the caller. -/
  | acknowledged (index : Nat) (path : PathCheck)
  /-- The request times out or its answer is lost. -/
  | abandon (index : Nat)
  | openFlush (path : PathCheck)
  /-- The next step of a flush that is going on. -/
  | flush (index : Nat) (path : PathCheck)
  | endFlush (index : Nat)

/-- A Bridge process that is gone waits for nothing. -/
def DeliveryState.withJournal (s : DeliveryState) (journal : JournalState) :
    DeliveryState :=
  match journal.process with
  | .live _ => { s with journal }
  | _ => { s with
      journal
      requests := s.requests.map fun request => { request with waiting := false }
      flushes := [] }

/-- The guard of a read; a refusal may poison the journal. -/
def readJournal (s : JournalState) (path : PathCheck) : JournalState × Bool :=
  match s.process with
  | .live journal =>
    match guard journal path with
    | (next, .ok _) => (⟨s.disk, .live next⟩, true)
    | (next, .error _) => (⟨s.disk, .live next⟩, false)
  | _ => (s, false)

def isOutputAcknowledgement : JournalAction → Bool
  | .enter (.acknowledgeOutput _ _) _ => true
  | _ => false

def DeliveryState.send (s : DeliveryState) (chunk : RuntimeBridgeOutput) :
    DeliveryState :=
  { s with requests := s.requests ++ [⟨chunk, true, none⟩] }

/-- The output route: store the chunk and answer with what identifies it. -/
def serveOutput (host : DeliveryHost) (s : DeliveryState) (index : Nat)
    (request : OutputRequest) (scope : RuntimeScope) (env : LedgerEnv) :
    DeliveryState :=
  match ledgerStep host.ledger s.ledger (.call (.recordOutput scope
      request.chunk.attempt.operationId request.chunk) env) with
  | (ledger, .ok _) =>
    { s with
      ledger
      requests := s.requests.set index
        { request with answer := some (outputAck host request.chunk) } }
  | (ledger, .error _) => { s with ledger }

/-- `deliverOutput` after its request: only a matching answer is recorded. -/
def finishOutput (host : DeliveryHost) (s : DeliveryState) (index : Nat)
    (request : OutputRequest) (ack : OutputAck) (path : PathCheck) :
    DeliveryState :=
  let s := { s with
    requests := s.requests.set index { request with waiting := false } }
  if ack.operationId ≠ request.chunk.attempt.operationId ∨
      ack.sequence ≠ request.chunk.sequence ∨
      ack.digest ≠ host.digest request.chunk then s
  else
    s.withJournal (journalStep host.journal s.journal
      (.enter (.acknowledgeOutput request.chunk.attempt.operationId
        request.chunk.sequence) path)).1

def isDelivered (disk : JournalDisk) (chunk : RuntimeBridgeOutput) : Bool :=
  (disk.outputOutbox.find?
    (chunk.attempt.operationId, chunk.sequence)).any (·.delivered)

/-- `flush`, from one await to the next.  The answer is the receipt that it
sends in this step. -/
def flushStep (host : DeliveryHost) (s : DeliveryState) (index : Nat)
    (path : PathCheck) :
    FlushStage → DeliveryState × Option RuntimeBridgeReceipt
  | .outputs [] =>
    let (journal, readable) := readJournal s.journal path
    if readable ∧ pendingOutput journal.disk 1 = [] then
      ({ s with journal, flushes := s.flushes.set index .drained }, none)
    else ({ s with journal, flushes := s.flushes.eraseIdx index }, none)
  | .outputs (chunk :: rest) =>
    ({ s.send chunk with
        flushes := s.flushes.set index (.sending chunk rest) }, none)
  | .sending chunk rest =>
    if isDelivered s.journal.disk chunk then
      ({ s with flushes := s.flushes.set index (.outputs rest) }, none)
    else (s, none)
  | .drained =>
    let (journal, readable) := readJournal s.journal path
    if readable then
      ({ s with
          journal
          flushes := s.flushes.set index
            (.receipts (pendingForDelivery journal.disk 16)) }, none)
    else ({ s with journal, flushes := s.flushes.eraseIdx index }, none)
  | .receipts [] => ({ s with flushes := s.flushes.eraseIdx index }, none)
  | .receipts (receipt :: rest) =>
    ({ s with flushes := s.flushes.set index (.reporting receipt rest) },
      some receipt)
  | .reporting receipt rest =>
    let s := { s with flushes := s.flushes.set index (.receipts rest) }
    (s.withJournal (journalStep host.journal s.journal
      (.enter (.acknowledge receipt.receiptId) path)).1, none)

def deliveryStep (host : DeliveryHost) (operationId : Uuid)
    (s : DeliveryState) :
    DeliveryAction → DeliveryState × Option RuntimeBridgeReceipt
  | .journal action =>
    if isOutputAcknowledgement action then (s, none)
    else (s.withJournal (journalStep host.journal s.journal action).1, none)
  | .ledger action =>
    if action.outputOf = some operationId then (s, none)
    else ({ s with ledger := (ledgerStep host.ledger s.ledger action).1 },
      none)
  | .deliverOutput chunk =>
    match s.journal.process with
    | .live _ =>
      if s.journal.disk.outputOutbox.rows.any (·.body = chunk) then
        (s.send chunk, none)
      else (s, none)
    | _ => (s, none)
  | .serve index scope env =>
    match s.requests[index]? with
    | some request => (serveOutput host s index request scope env, none)
    | none => (s, none)
  | .acknowledged index path =>
    match s.requests[index]? with
    | some ⟨chunk, true, some ack⟩ =>
      (finishOutput host s index ⟨chunk, true, some ack⟩ ack path, none)
    | _ => (s, none)
  | .abandon index =>
    match s.requests[index]? with
    | some request =>
      ({ s with requests :=
          s.requests.set index { request with waiting := false } }, none)
    | none => (s, none)
  | .openFlush path =>
    let (journal, readable) := readJournal s.journal path
    if readable then
      ({ s with
          journal
          flushes := s.flushes ++
            [.outputs (pendingOutput journal.disk 32)] }, none)
    else ({ s with journal }, none)
  | .flush index path =>
    match s.flushes[index]? with
    | some stage => flushStep host s index path stage
    | none => (s, none)
  | .endFlush index =>
    ({ s with flushes := s.flushes.eraseIdx index }, none)

/-- The Bridge that an operation was dispatched to and the server.  The Bridge
alone holds the lease token, so no other client stores output of it. -/
def deliveryMachine (host : DeliveryHost) (operationId : Uuid) :
    Machine DeliveryState DeliveryAction (Option RuntimeBridgeReceipt) :=
  ⟨deliveryStep host operationId⟩

/-- Journal and ledger agree on the output of an operation, and whoever is about
to record an acknowledgement knows a chunk that was stored. -/
structure Ends (operationId : Uuid) (journal : JournalState) (db : LedgerDb) :
    Prop where
  filed : journal.disk.Filed
  stored : storedChunks db operationId <+:
    journaledChunks journal.disk operationId
  delivered : ∀ row ∈ outputRows journal.disk operationId,
    row.delivered = true → chunkOf row.body ∈ storedChunks db operationId
  entered : ∀ sequence, .acknowledgeOutput operationId sequence ∈
    journal.calls → ∃ chunk ∈ storedChunks db operationId,
      chunk.sequence = sequence

/-- A request carries a chunk of the journal, and an answer to it is about a
chunk that was stored. -/
def OutputRequest.Sound (request : OutputRequest) (operationId : Uuid)
    (disk : JournalDisk) (db : LedgerDb) : Prop :=
  request.chunk.attempt.operationId = operationId →
    chunkOf request.chunk ∈ journaledChunks disk operationId ∧
      (request.answer.isSome →
        chunkOf request.chunk ∈ storedChunks db operationId)

def FlushStage.chunks : FlushStage → List RuntimeBridgeOutput
  | .outputs chunks | .sending _ chunks => chunks
  | _ => []

def FlushStage.unsent : FlushStage → List RuntimeBridgeReceipt
  | .receipts rest | .reporting _ rest => rest
  | _ => []

/-- A flush holds chunks of the journal and receipts of drained operations. -/
def FlushStage.Sound (stage : FlushStage) (operationId : Uuid)
    (disk : JournalDisk) : Prop :=
  (∀ chunk ∈ stage.chunks, chunk.attempt.operationId = operationId →
    chunkOf chunk ∈ journaledChunks disk operationId) ∧
  ∀ receipt ∈ stage.unsent, receipt.attempt.operationId = operationId →
    disk.Drained operationId

structure OutputInOrder (operationId : Uuid) (s : DeliveryState) : Prop where
  ends : Ends operationId s.journal s.ledger.db
  requests : ∀ request ∈ s.requests,
    request.Sound operationId s.journal.disk s.ledger.db
  flushes : ∀ stage ∈ s.flushes, stage.Sound operationId s.journal.disk

/-- The logs only grow, and a drained operation stays drained with its log. -/
structure Grows (operationId : Uuid) (disk next : JournalDisk) : Prop where
  journaled : journaledChunks disk operationId <+:
    journaledChunks next operationId
  drained : disk.Drained operationId → next.Drained operationId ∧
    journaledChunks next operationId = journaledChunks disk operationId

theorem Grows.refl (operationId : Uuid) (disk : JournalDisk) :
    Grows operationId disk disk :=
  ⟨List.prefix_refl _, fun h => ⟨h, rfl⟩⟩

variable {operationId : Uuid} {s : DeliveryState} {disk next : JournalDisk}
  {index : Nat} {request : OutputRequest} {db : LedgerDb} {stage : FlushStage}

theorem Grows.trans {a b c : JournalDisk} (hab : Grows operationId a b)
    (hbc : Grows operationId b c) : Grows operationId a c := by
  refine ⟨hab.journaled.trans hbc.journaled, ?_⟩
  intro ha
  obtain ⟨hb, hsame⟩ := hab.drained ha
  obtain ⟨hc, hagain⟩ := hbc.drained hb
  exact ⟨hc, hagain.trans hsame⟩

theorem JournalWrite.grows {call : JournalCall}
    (h : JournalWrite call disk next) (operationId : Uuid) :
    Grows operationId disk next := by
  refine ⟨?_, h.drained⟩
  rcases h.journaled operationId with hsame | ⟨_, chunk, _, _, _, hgrown⟩
  · rw [hsame]
  · rw [hgrown]
    exact List.prefix_append _ _

theorem OutputRequest.Sound.mono {later : LedgerDb}
    (h : request.Sound operationId disk db)
    (hdisk : Grows operationId disk next)
    (hdb : storedChunks db operationId <+: storedChunks later operationId) :
    request.Sound operationId next later := by
  intro hid
  obtain ⟨hjournaled, hanswer⟩ := h hid
  exact ⟨hdisk.journaled.subset hjournaled,
    fun hsome => hdb.subset (hanswer hsome)⟩

theorem FlushStage.Sound.mono (h : stage.Sound operationId disk)
    (hdisk : Grows operationId disk next) : stage.Sound operationId next := by
  refine ⟨?_, ?_⟩
  · intro chunk hchunk hid
    exact hdisk.journaled.subset (h.1 chunk hchunk hid)
  · intro receipt hreceipt hid
    exact (hdisk.drained (h.2 receipt hreceipt hid)).1

variable {journal : JournalState} {row : OutputRow}

/-- The chunk that has the number of a stored one is the stored one. -/
theorem Ends.stored_of_sequence (h : Ends operationId journal db)
    (hrow : row ∈ outputRows journal.disk operationId)
    (hstored : ∃ chunk ∈ storedChunks db operationId,
      chunk.sequence = row.sequence) :
    chunkOf row.body ∈ storedChunks db operationId := by
  obtain ⟨chunk, hchunk, hsequence⟩ := hstored
  have hsame : chunkOf row.body = chunk := by
    apply (h.filed.numbered operationId).eq_of_number
    · exact List.mem_map_of_mem hrow
    · exact h.stored.subset hchunk
    · rw [hsequence]
      exact (h.filed.outputs row (mem_outputRows.1 hrow).1).2
  rw [hsame]
  exact hchunk

/-- A step of the journal; an acknowledgement that it enters is justified. -/
theorem Ends.journal_step {s next : JournalState} {action : JournalAction}
    (h : Ends operationId s db) (hstep : StepWrites s next action)
    (hentered : ∀ sequence path,
      action = .enter (.acknowledgeOutput operationId sequence) path →
        ∃ chunk ∈ storedChunks db operationId, chunk.sequence = sequence) :
    Ends operationId next db ∧ Grows operationId s.disk next.disk := by
  obtain ⟨⟨call, hwrite, hcall⟩, hcalls⟩ := hstep
  have hgrows := hwrite.grows operationId
  refine ⟨⟨hwrite.filed h.filed, h.stored.trans hgrows.journaled, ?_, ?_⟩,
    hgrows⟩
  · intro row hrow hdelivered
    obtain ⟨hmem, hid⟩ := mem_outputRows.1 hrow
    rcases hwrite.output_row hmem with hold | ⟨hack, old, hold, rfl⟩ | ⟨hnew, _⟩
    · exact h.delivered row (mem_outputRows.2 ⟨hold, hid⟩) hdelivered
    · have hknown := hcall _ _ hack
      rw [hack, hid] at hknown
      have hrow' : old ∈ outputRows s.disk operationId :=
        mem_outputRows.2 ⟨hold, hid⟩
      have hstored := h.stored_of_sequence hrow' (h.entered _ hknown)
      exact hstored
    · simp [hnew] at hdelivered
  · intro sequence hmem
    rcases hcalls _ hmem with hold | ⟨path, hpath⟩
    · exact h.entered sequence hold
    · exact hentered sequence path hpath

theorem OutputInOrder.withJournal (h : OutputInOrder operationId s)
    (hends : Ends operationId journal s.ledger.db)
    (hgrows : Grows operationId s.journal.disk journal.disk) :
    OutputInOrder operationId (s.withJournal journal) := by
  have hsound : ∀ request ∈ s.requests,
      request.Sound operationId journal.disk s.ledger.db := fun request hmem =>
    (h.requests request hmem).mono hgrows (List.prefix_refl _)
  unfold DeliveryState.withJournal
  split
  · exact ⟨hends, hsound, fun stage hmem => (h.flushes stage hmem).mono hgrows⟩
  · refine ⟨hends, ?_, by simp⟩
    intro request hrequest
    obtain ⟨old, hold, rfl⟩ := List.mem_map.1 hrequest
    exact hsound old hold

theorem OutputInOrder.withFlushes (h : OutputInOrder operationId s)
    {flushes : List FlushStage}
    (hflushes : ∀ stage ∈ flushes,
      stage ∈ s.flushes ∨ stage.Sound operationId s.journal.disk) :
    OutputInOrder operationId { s with flushes } := by
  refine ⟨h.ends, h.requests, ?_⟩
  intro stage hmem
  rcases hflushes stage hmem with hold | hnew
  · exact h.flushes stage hold
  · exact hnew

theorem OutputInOrder.withRequests (h : OutputInOrder operationId s)
    {requests : List OutputRequest}
    (hrequests : ∀ request ∈ requests, request ∈ s.requests ∨
      request.Sound operationId s.journal.disk s.ledger.db) :
    OutputInOrder operationId { s with requests } := by
  refine ⟨h.ends, ?_, h.flushes⟩
  intro request hmem
  rcases hrequests request hmem with hold | hnew
  · exact h.requests request hold
  · exact hnew

/-- One flush moves on. -/
theorem OutputInOrder.setFlush (h : OutputInOrder operationId s)
    (hstage : stage.Sound operationId s.journal.disk) :
    OutputInOrder operationId
      { s with flushes := s.flushes.set index stage } := by
  apply h.withFlushes
  intro other hmem
  rcases List.mem_or_eq_of_mem_set hmem with hold | rfl
  · exact .inl hold
  · exact .inr hstage

theorem OutputInOrder.eraseFlush {operationId : Uuid} {s : DeliveryState}
    (index : Nat) (h : OutputInOrder operationId s) :
    OutputInOrder operationId
      { s with flushes := s.flushes.eraseIdx index } := by
  apply h.withFlushes
  intro other hmem
  exact .inl ((List.eraseIdx_sublist _ _).subset hmem)

theorem OutputInOrder.setRequest (h : OutputInOrder operationId s)
    (hrequest : request.Sound operationId s.journal.disk s.ledger.db) :
    OutputInOrder operationId
      { s with requests := s.requests.set index request } := by
  apply h.withRequests
  intro other hmem
  rcases List.mem_or_eq_of_mem_set hmem with hold | rfl
  · exact .inl hold
  · exact .inr hrequest

theorem OutputInOrder.send {chunk : RuntimeBridgeOutput}
    (h : OutputInOrder operationId s)
    (hchunk : chunk.attempt.operationId = operationId →
      chunkOf chunk ∈ journaledChunks s.journal.disk operationId) :
    OutputInOrder operationId (s.send chunk) := by
  apply h.withRequests
  intro request hmem
  rcases List.mem_append.1 hmem with hold | hnew
  · exact .inl hold
  · rw [List.mem_singleton] at hnew
    subst hnew
    exact .inr fun hid => ⟨hchunk hid, by simp⟩

/-- A row of the outbox is a chunk of the log of its operation. -/
theorem journaled_of_row (hdisk : disk.Filed)
    (hrow : row ∈ disk.outputOutbox.rows)
    (hid : row.body.attempt.operationId = operationId) :
    chunkOf row.body ∈ journaledChunks disk operationId := by
  refine List.mem_map.2 ⟨row, mem_outputRows.2 ⟨hrow, ?_⟩, rfl⟩
  rw [← (hdisk.outputs row hrow).1, hid]

theorem journaled_of_pending {limit : Nat} (hdisk : disk.Filed)
    {chunk : RuntimeBridgeOutput} (hchunk : chunk ∈ pendingOutput disk limit)
    (hid : chunk.attempt.operationId = operationId) :
    chunkOf chunk ∈ journaledChunks disk operationId := by
  obtain ⟨row, hrow, rfl⟩ := List.mem_map.1 hchunk
  have hmem := List.mem_of_mem_take hrow
  rw [List.mem_insertionSort] at hmem
  exact journaled_of_row hdisk (List.mem_of_mem_filter hmem) hid

theorem readJournal_disk (s : JournalState) (path : PathCheck) :
    (readJournal s path).1.disk = s.disk := by
  unfold readJournal
  cases s.process with
  | live journal => cases hguard : guard journal path with
    | mk next result => cases result <;> simp [hguard]
  | _ => rfl

theorem readJournal_calls (s : JournalState) (path : PathCheck) :
    (readJournal s path).1.calls = s.calls := by
  obtain ⟨disk, process⟩ := s
  unfold readJournal
  cases process with
  | live journal =>
    have hcalls := guard_calls journal path
    cases hguard : guard journal path with
    | mk next result =>
      rw [hguard] at hcalls
      cases result <;> simpa [hguard, JournalState.calls] using hcalls
  | _ => rfl

/-- A read changes nothing but the poison flag. -/
theorem OutputInOrder.read {operationId : Uuid} {s : DeliveryState}
    (h : OutputInOrder operationId s) (path : PathCheck) :
    OutputInOrder operationId
      { s with journal := (readJournal s.journal path).1 } := by
  have hdisk := readJournal_disk s.journal path
  have hcalls := readJournal_calls s.journal path
  refine ⟨⟨?_, ?_, ?_, ?_⟩, ?_, ?_⟩
  · exact hdisk.symm ▸ h.ends.filed
  · exact hdisk.symm ▸ h.ends.stored
  · exact hdisk.symm ▸ h.ends.delivered
  · exact hcalls.symm ▸ h.ends.entered
  · exact hdisk.symm ▸ h.requests
  · exact hdisk.symm ▸ h.flushes

/-- A step that the journal takes. -/
theorem OutputInOrder.journal_step {host : DeliveryHost}
    (h : OutputInOrder operationId s) (action : JournalAction)
    (hentered : ∀ sequence path,
      action = .enter (.acknowledgeOutput operationId sequence) path →
        ∃ chunk ∈ storedChunks s.ledger.db operationId,
          chunk.sequence = sequence) :
    OutputInOrder operationId
        (s.withJournal (journalStep host.journal s.journal action).1) ∧
      Grows operationId s.journal.disk
        (journalStep host.journal s.journal action).1.disk := by
  obtain ⟨hends, hgrows⟩ := h.ends.journal_step
    (journalStep_writes host.journal s.journal action) hentered
  exact ⟨h.withJournal hends hgrows, hgrows⟩

@[simp] theorem withJournal_disk (s : DeliveryState) (journal : JournalState) :
    (s.withJournal journal).journal = journal := by
  unfold DeliveryState.withJournal
  split <;> rfl

/-- The server takes a chunk of the log only as the next one. -/
theorem OutputInOrder.serve {host : DeliveryHost}
    (h : OutputInOrder operationId s) (hrequest : request ∈ s.requests)
    (scope : RuntimeScope) (env : LedgerEnv) :
    OutputInOrder operationId (serveOutput host s index request scope env) := by
  unfold serveOutput
  cases hstep : ledgerStep host.ledger s.ledger (.call (.recordOutput scope
      request.chunk.attempt.operationId request.chunk) env) with
  | mk ledger result =>
    have hledger : (ledgerStep host.ledger s.ledger (.call (.recordOutput
        scope request.chunk.attempt.operationId request.chunk) env)).1 =
          ledger := by rw [hstep]
    cases result with
    | error error =>
      -- a refused call changes nothing
      have hsame : ledger = s.ledger := by
        rw [← hledger]
        simp only [ledgerStep, LedgerState.commit] at hstep ⊢
        split
        · rename_i hrun
          simp [hrun] at hstep
        · rfl
      subst hsame
      exact h
    | ok answer =>
      have hrun := ledgerStep_call_eq_ok (congrArg Prod.snd hstep)
      obtain ⟨_, hrecord, _⟩ := map_eq_ok.1 hrun
      rw [hledger] at hrecord
      obtain ⟨hothers, hstored⟩ := recordLedgerOutput_stored hrecord
      have hprefix : storedChunks s.ledger.db operationId <+:
          storedChunks ledger.db operationId := by
        by_cases hid : operationId = request.chunk.attempt.operationId
        · subst hid
          rcases hstored with ⟨hsame, _⟩ | ⟨hgrown, _⟩
          · rw [hsame]
          · rw [hgrown]
            exact List.prefix_append _ _
        · rw [hothers operationId hid]
      have hown : request.chunk.attempt.operationId = operationId →
          storedChunks ledger.db operationId <+:
              journaledChunks s.journal.disk operationId ∧
            chunkOf request.chunk ∈ storedChunks ledger.db operationId := by
        intro hid
        rw [hid] at hstored
        obtain ⟨hjournaled, _⟩ := h.requests request hrequest hid
        rcases hstored with ⟨hsame, hmem⟩ | ⟨hgrown, hnext⟩
        · rw [hsame]
          exact ⟨h.ends.stored, hmem⟩
        · have hnumbered := h.ends.filed.numbered operationId
          rw [hgrown]
          refine ⟨?_, by simp⟩
          apply hnumbered.extend h.ends.stored hjournaled
          rw [← nextSequence_numbered (hnumbered.of_prefix h.ends.stored)]
          exact hnext
      have hstill : storedChunks ledger.db operationId <+:
          journaledChunks s.journal.disk operationId := by
        by_cases hid : request.chunk.attempt.operationId = operationId
        · exact (hown hid).1
        · rw [hothers operationId (Ne.symm hid)]
          exact h.ends.stored
      have hordered : OutputInOrder operationId { s with ledger } := by
        refine ⟨⟨h.ends.filed, hstill, ?_, ?_⟩, ?_, h.flushes⟩
        · intro row hrow hdelivered
          exact hprefix.subset (h.ends.delivered row hrow hdelivered)
        · intro sequence hmem
          obtain ⟨chunk, hchunk, hsequence⟩ := h.ends.entered sequence hmem
          exact ⟨chunk, hprefix.subset hchunk, hsequence⟩
        · intro other hother
          exact (h.requests other hother).mono (.refl _ _) hprefix
      apply hordered.setRequest
      intro hid
      exact ⟨(h.requests request hrequest hid).1, fun _ => (hown hid).2⟩

theorem serveOutput_journal (host : DeliveryHost) (s : DeliveryState)
    (index : Nat) (request : OutputRequest) (scope : RuntimeScope)
    (env : LedgerEnv) :
    (serveOutput host s index request scope env).journal = s.journal := by
  unfold serveOutput
  split <;> rfl

theorem OutputInOrder.finishOutput {host : DeliveryHost} {ack : OutputAck}
    (h : OutputInOrder operationId s) (hrequest : request ∈ s.requests)
    (hack : request.answer = some ack) (path : PathCheck) :
    OutputInOrder operationId (finishOutput host s index request ack path) ∧
      Grows operationId s.journal.disk
        (finishOutput host s index request ack path).journal.disk := by
  have hsound := h.requests request hrequest
  have hwaiting : OutputInOrder operationId { s with
      requests := s.requests.set index { request with waiting := false } } :=
    h.setRequest hsound
  unfold Allrice.finishOutput
  simp only
  split
  · exact ⟨hwaiting, .refl _ _⟩
  · rw [withJournal_disk]
    apply hwaiting.journal_step
    intro sequence path' henter
    simp only [JournalAction.enter.injEq,
      JournalCall.acknowledgeOutput.injEq] at henter
    obtain ⟨⟨hid, hsequence⟩, _⟩ := henter
    exact ⟨_, (hsound hid).2 (by simp [hack]), hsequence⟩

theorem OutputInOrder.flushStep {host : DeliveryHost}
    (h : OutputInOrder operationId s) (hstage : stage ∈ s.flushes)
    (path : PathCheck) :
    OutputInOrder operationId (flushStep host s index path stage).1 ∧
      Grows operationId s.journal.disk
        (flushStep host s index path stage).1.journal.disk := by
  have hsound := h.flushes stage hstage
  have hread := h.read path
  have hdisk := readJournal_disk s.journal path
  have hsame : Grows operationId s.journal.disk
      (readJournal s.journal path).1.disk := by
    rw [hdisk]
    exact .refl _ _
  cases stage with
  | outputs chunks =>
    cases chunks with
    | nil =>
      simp only [Allrice.flushStep]
      split
      · exact ⟨hread.setFlush ⟨by simp [FlushStage.chunks],
          by simp [FlushStage.unsent]⟩, hsame⟩
      · exact ⟨hread.eraseFlush index, hsame⟩
    | cons chunk rest =>
      refine ⟨?_, .refl _ _⟩
      have hsent := h.send (hsound.1 chunk List.mem_cons_self)
      apply hsent.setFlush
      refine ⟨?_, by simp [FlushStage.unsent]⟩
      exact fun other hother => hsound.1 other (List.mem_cons_of_mem _ hother)
  | sending chunk rest =>
    simp only [Allrice.flushStep]
    split
    · exact ⟨h.setFlush ⟨hsound.1, by simp [FlushStage.unsent]⟩, .refl _ _⟩
    · exact ⟨h, .refl _ _⟩
  | drained =>
    simp only [Allrice.flushStep]
    split
    · refine ⟨hread.setFlush ⟨by simp [FlushStage.chunks], ?_⟩, hsame⟩
      intro receipt hreceipt hid
      rw [← hid]
      exact pendingForDelivery_drained hread.ends.filed hreceipt
    · exact ⟨hread.eraseFlush index, hsame⟩
  | receipts receipts =>
    cases receipts with
    | nil => exact ⟨h.eraseFlush index, .refl _ _⟩
    | cons receipt rest =>
      refine ⟨?_, .refl _ _⟩
      apply h.setFlush
      refine ⟨by simp [FlushStage.chunks], ?_⟩
      exact fun other hother => hsound.2 other (List.mem_cons_of_mem _ hother)
  | reporting receipt rest =>
    simp only [Allrice.flushStep]
    rw [withJournal_disk]
    have hmoved : OutputInOrder operationId
        { s with flushes := s.flushes.set index (.receipts rest) } :=
      h.setFlush ⟨by simp [FlushStage.chunks], hsound.2⟩
    apply hmoved.journal_step
    intro sequence path' henter
    simp at henter

/-- Every step keeps the order of the output and lets the logs grow. -/
theorem OutputInOrder.step {host : DeliveryHost}
    (h : OutputInOrder operationId s) (action : DeliveryAction) :
    OutputInOrder operationId (deliveryStep host operationId s action).1 ∧
      Grows operationId s.journal.disk
        (deliveryStep host operationId s action).1.journal.disk := by
  have hstays : OutputInOrder operationId s ∧
      Grows operationId s.journal.disk s.journal.disk := ⟨h, .refl _ _⟩
  cases action with
  | journal action =>
    simp only [deliveryStep]
    split
    · exact hstays
    · rename_i haction
      rw [withJournal_disk]
      apply h.journal_step
      intro sequence path henter
      subst henter
      simp [isOutputAcknowledgement] at haction
  | ledger action =>
    simp only [deliveryStep]
    split
    · exact hstays
    · rename_i haction
      have hstored := ledgerStep_stored host.ledger s.ledger haction
      refine ⟨⟨⟨h.ends.filed, ?_, ?_, ?_⟩, ?_, h.flushes⟩, .refl _ _⟩
      · rw [hstored]
        exact h.ends.stored
      · rw [hstored]
        exact h.ends.delivered
      · rw [hstored]
        exact h.ends.entered
      · intro request hrequest
        apply (h.requests request hrequest).mono (.refl _ _)
        rw [hstored]
  | deliverOutput chunk =>
    simp only [deliveryStep]
    split
    · split
      · rename_i hchunk
        refine ⟨h.send ?_, .refl _ _⟩
        intro hid
        obtain ⟨row, hrow, hbody⟩ := List.any_eq_true.1 hchunk
        obtain rfl := of_decide_eq_true hbody
        exact journaled_of_row h.ends.filed hrow hid
      · exact hstays
    · exact hstays
  | serve index scope env =>
    simp only [deliveryStep]
    cases hrequest : s.requests[index]? with
    | none => exact hstays
    | some request =>
      refine ⟨h.serve (List.mem_of_getElem? hrequest) scope env, ?_⟩
      simp only [serveOutput_journal]
      exact .refl _ _
  | acknowledged index path =>
    simp only [deliveryStep]
    split
    · rename_i hrequest
      exact h.finishOutput (List.mem_of_getElem? hrequest) rfl path
    · exact hstays
  | abandon index =>
    simp only [deliveryStep]
    cases hrequest : s.requests[index]? with
    | none => exact hstays
    | some request =>
      refine ⟨h.setRequest ?_, .refl _ _⟩
      exact h.requests request (List.mem_of_getElem? hrequest)
  | openFlush path =>
    have hread := h.read path
    have hdisk := readJournal_disk s.journal path
    have hsame : Grows operationId s.journal.disk
        (readJournal s.journal path).1.disk := by
      rw [hdisk]
      exact .refl _ _
    simp only [deliveryStep]
    split
    · refine ⟨?_, hsame⟩
      apply hread.withFlushes
      intro stage hstage
      rcases List.mem_append.1 hstage with hold | hnew
      · exact .inl hold
      · rw [List.mem_singleton] at hnew
        subst hnew
        refine .inr ⟨?_, by simp [FlushStage.unsent]⟩
        intro chunk hchunk hid
        exact journaled_of_pending hread.ends.filed hchunk hid
    · exact ⟨hread, hsame⟩
  | flush index path =>
    simp only [deliveryStep]
    cases hstage : s.flushes[index]? with
    | none => exact hstays
    | some stage => exact h.flushStep (List.mem_of_getElem? hstage) path
  | endFlush index => exact ⟨h.eraseFlush index, .refl _ _⟩

theorem inOrder_init (operationId : Uuid) :
    OutputInOrder operationId .init := by
  have hempty : JournalDisk.empty.Filed := by
    constructor
    · intro row hrow
      simp [JournalDisk.empty, Table.empty] at hrow
    · intro row hrow
      simp [JournalDisk.empty, Table.empty] at hrow
    · exact fun _ => Numbered.nil
    · intro row hrow
      simp [JournalDisk.empty, Table.empty] at hrow
  refine ⟨⟨hempty, List.prefix_refl _, ?_, ?_⟩, ?_, ?_⟩
  · intro row hrow
    obtain ⟨hrow, _⟩ := mem_outputRows.1 hrow
    simp [DeliveryState.init, JournalState.initial, JournalDisk.empty,
      Table.empty] at hrow
  · intro sequence hmem
    simp [DeliveryState.init, JournalState.initial, JournalState.calls] at hmem
  · intro request hmem
    simp [DeliveryState.init] at hmem
  · intro stage hmem
    simp [DeliveryState.init] at hmem

theorem reachable_inOrder (host : DeliveryHost) (operationId : Uuid)
    (actions : List DeliveryAction) :
    OutputInOrder operationId
      ((deliveryMachine host operationId).after .init actions) :=
  Machine.after_invariant (OutputInOrder operationId)
    (fun _ action h => (h.step action).1) (inOrder_init operationId) actions

theorem OutputInOrder.run_grows {host : DeliveryHost}
    (h : OutputInOrder operationId s) (later : List DeliveryAction) :
    Grows operationId s.journal.disk
      ((deliveryMachine host operationId).after s later).journal.disk :=
  Machine.after_rel (m := deliveryMachine host operationId)
    (OutputInOrder operationId)
    (fun a b => Grows operationId a.journal.disk b.journal.disk)
    (fun _ => .refl _ _) .trans (fun _ action h => (h.step action).1)
    (fun _ action h => (h.step action).2) h later

/-- A receipt is sent by a flush that read it from the outbox. -/
theorem sent_of_flush {host : DeliveryHost} {action : DeliveryAction}
    {receipt : RuntimeBridgeReceipt}
    (h : (deliveryStep host operationId s action).2 = some receipt) :
    ∃ rest, FlushStage.receipts (receipt :: rest) ∈ s.flushes := by
  cases action with
  | flush index path =>
    simp only [deliveryStep] at h
    cases hstage : s.flushes[index]? with
    | none => simp [hstage] at h
    | some stage =>
      simp only [hstage] at h
      have hmem := List.mem_of_getElem? hstage
      cases stage with
      | receipts receipts =>
        cases receipts with
        | nil => simp [flushStep] at h
        | cons sent rest =>
          obtain rfl := Option.some.inj h
          exact ⟨rest, hmem⟩
      | outputs chunks =>
        cases chunks with
        | nil =>
          simp only [flushStep] at h
          split at h <;> simp at h
        | cons chunk rest => simp [flushStep] at h
      | _ =>
        simp only [flushStep] at h
        try split at h
        all_goals simp at h
  | _ =>
    simp only [deliveryStep] at h
    repeat' split at h
    all_goals simp at h

/-- Command output reaches the ledger in order and without gaps: what is stored
is at every moment a prefix of what was journaled, and when the flush sends a
receipt of the operation, every journaled chunk was acknowledged and stored and
the journal of its output never changes again. -/
theorem output_delivered_in_order (host : DeliveryHost) (operationId : Uuid)
    (actions : List DeliveryAction) :
    let machine := deliveryMachine host operationId
    let s := machine.after .init actions
    storedChunks s.ledger.db operationId <+:
        journaledChunks s.journal.disk operationId ∧
      Numbered OutputChunk.sequence (storedChunks s.ledger.db operationId) ∧
      ∀ action receipt, (machine.step s action).2 = some receipt →
        receipt.attempt.operationId = operationId →
        (∀ row ∈ outputRows s.journal.disk operationId,
          row.delivered = true) ∧
        storedChunks s.ledger.db operationId =
          journaledChunks s.journal.disk operationId ∧
        ∀ later,
          journaledChunks (machine.after s later).journal.disk operationId =
            journaledChunks s.journal.disk operationId := by
  intro machine s
  have hs : OutputInOrder operationId s :=
    reachable_inOrder host operationId actions
  have hnumbered := hs.ends.filed.numbered operationId
  refine ⟨hs.ends.stored, hnumbered.of_prefix hs.ends.stored, ?_⟩
  intro action receipt hsent hid
  obtain ⟨rest, hflush⟩ := sent_of_flush hsent
  have hdrained : s.journal.disk.Drained operationId :=
    (hs.flushes _ hflush).2 receipt List.mem_cons_self hid
  refine ⟨hdrained.2, ?_, ?_⟩
  · apply hnumbered.eq_of_all hs.ends.stored
    intro chunk hchunk
    obtain ⟨row, hrow, rfl⟩ := List.mem_map.1 hchunk
    exact hs.ends.delivered row hrow (hdrained.2 row hrow)
  · intro later
    exact ((hs.run_grows later).drained hdrained).2

namespace OutputWitness

open LedgerWitness

def host : DeliveryHost :=
  ⟨JournalRunWitness.host, LedgerWitness.host, fun _ => 9⟩

def payload : RuntimeBridgePayload := .process ⟨false, false, false, 4, .none⟩

/-- A planned `local.process.execute` on the device. -/
def planned : RuntimeOperationSnapshot :=
  { LedgerWitness.planned with
    binding := { LedgerWitness.planned.binding with
      action := payload.capability } }

def dispatch : RuntimeBridgeDispatch where
  snapshot := { planned with status := .dispatched }
  payload := payload
  leaseToken := 500
  leaseExpiresAt := 60001
  grantRootFingerprint := 32

def create : CreateRuntimeOperationInput :=
  { LedgerWitness.create with
    snapshot := planned
    bridgePayload := some payload }

def chunk : OutputChunk := ⟨0, .stdout, JsString.ofString "ok"⟩

def uncertain : JournalCall :=
  .uncertain 7 .receiptMissing none ⟨70, 71, 5⟩

def receipt : RuntimeBridgeReceipt :=
  ⟨70, planned.binding.attempt, 500, .uncertain .receiptMissing, none⟩

/-- The operation runs, its only chunk is acknowledged, and a flush has read
the receipt that ends it. -/
def delivered : List DeliveryAction :=
  [DeliveryAction.ledger (.call (.createRoot task 100000
      [⟨.wallTime, .milliseconds, none, 10, source⟩]) (envAt 0)),
    .ledger (.call (.createOperation create) (envAt 1)),
    .ledger (.call (.dispatch task.scope 7 5 60000) (envAt 1))] ++
  (JournalRunWitness.session 0 [.receive dispatch 60 4096, .begin 7,
    .recordOutput 7 chunk]).map DeliveryAction.journal ++
  [DeliveryAction.deliverOutput
      ⟨planned.binding.attempt, 500, 0, .stdout, chunk.text⟩,
    .serve 0 task.scope (envAt 2), .acknowledged 0 .unchanged,
    .journal (.perform 0 false),
    .journal (.enter uncertain .unchanged), .journal (.perform 0 false),
    .openFlush .unchanged, .flush 0 .unchanged, .flush 0 .unchanged]

theorem flush_sends :
    (deliveryStep host 7 ((deliveryMachine host 7).after .init delivered)
      (.flush 0 .unchanged)).2 = some receipt := by
  decide +kernel

theorem journaled_chunk :
    journaledChunks ((deliveryMachine host 7).after .init
      delivered).journal.disk 7 = [chunk] := by
  decide +kernel

theorem output_delivered_in_order_flushed :
    let machine := deliveryMachine host 7
    let s := machine.after .init delivered
    storedChunks s.ledger.db 7 = [chunk] ∧
      ∀ later, journaledChunks (machine.after s later).journal.disk 7 =
        [chunk] := by
  obtain ⟨_, hstored, hlater⟩ :=
    (output_delivered_in_order host 7 delivered).2.2 (.flush 0 .unchanged)
      receipt flush_sends rfl
  exact ⟨hstored.trans journaled_chunk,
    fun later => (hlater later).trans journaled_chunk⟩

end OutputWitness

end Allrice
