/-
What the writes of the command journal do to its rows: a row keeps its receipt,
and it leaves the table only once it is delivered, completed and behind enough
newer rows of that kind.
-/
import Allrice.FileCommandJournal

namespace Allrice

/-- A row as a later state still has it. -/
structure RowKept (row later : FileCommandRow) : Prop where
  rowid : later.rowid = row.rowid
  commandId : later.commandId = row.commandId
  fingerprint : later.fingerprint = row.fingerprint
  command : later.command = row.command
  receipt : ∀ receipt, row.receipt = some receipt →
    later.receipt = some receipt
  delivered : row.delivered = true → later.delivered = true
  state : row.state ≠ .executing → later.state = row.state

theorem RowKept.refl (row : FileCommandRow) : RowKept row row :=
  ⟨rfl, rfl, rfl, rfl, fun _ h => h, fun h => h, fun _ => rfl⟩

theorem RowKept.trans {first second third : FileCommandRow}
    (h : RowKept first second) (h' : RowKept second third) :
    RowKept first third where
  rowid := h'.rowid.trans h.rowid
  commandId := h'.commandId.trans h.commandId
  fingerprint := h'.fingerprint.trans h.fingerprint
  command := h'.command.trans h.command
  receipt := fun receipt hr => h'.receipt receipt (h.receipt receipt hr)
  delivered := fun hd => h'.delivered (h.delivered hd)
  state := by
    intro hs
    have hsecond := h.state hs
    rw [← hsecond] at hs
    exact (h'.state hs).trans hsecond

/-- The state that a row has by its receipt. -/
def stateOf : Option CompleteBridgeCommandInput → CommandState
  | none => .executing
  | some receipt => stateAfter receipt

/-- The rows stand in the order of their row ids, their state is that of their
receipt, and only receipts are delivered. -/
structure CommandsWellFormed (table : CommandTable) : Prop where
  ordered : table.rows.Pairwise fun row later => row.rowid < later.rowid
  state : ∀ row ∈ table.rows, row.state = stateOf row.receipt
  delivered : ∀ row ∈ table.rows, row.delivered = true → row.receipt ≠ none

theorem stateAfter_ne_executing (receipt : CompleteBridgeCommandInput) :
    stateAfter receipt ≠ .executing := by
  unfold stateAfter
  split <;> simp

variable {table next : CommandTable} {row : FileCommandRow}
  {pruning : Option (Uuid × Nat)}

theorem rowid_lt_nextRowid (h : row ∈ table.rows) :
    row.rowid < nextRowid table := by
  have hmax : ∀ rowids : List Nat, ∀ rowid ∈ rowids,
      rowid ≤ rowids.foldr max 0 := by
    intro rowids
    induction rowids with
    | nil => simp
    | cons head tail ih =>
      intro rowid hrowid
      rcases List.mem_cons.mp hrowid with rfl | htail
      · exact Nat.le_max_left _ _
      · exact (ih rowid htail).trans (Nat.le_max_right _ _)
  exact Nat.lt_succ_of_le (hmax _ _ (List.mem_map_of_mem h))

theorem CommandsWellFormed.rowid_inj (h : CommandsWellFormed table)
    {other : FileCommandRow} (hrow : row ∈ table.rows)
    (hother : other ∈ table.rows) (heq : row.rowid = other.rowid) :
    row = other := by
  have hdistinct : (table.rows.map FileCommandRow.rowid).Nodup := by
    rw [List.nodup_iff_pairwise_ne, List.pairwise_map]
    exact h.ordered.imp fun hlt => Nat.ne_of_lt hlt
  exact List.inj_on_of_nodup_map hdistinct hrow hother heq

/-- What is not among the newest lies behind as many as are kept. -/
theorem not_mem_newest {rowids : List Nat} {count rowid : Nat}
    (hmem : rowid ∈ rowids) (h : rowid ∉ newest rowids count) :
    (newest rowids count).length = count ∧
      ∀ newer ∈ newest rowids count, rowid < newer := by
  have hsorted := List.pairwise_insertionSort (· ≥ ·) rowids
  have hin : rowid ∈ rowids.insertionSort (· ≥ ·) :=
    (List.mem_insertionSort _).mpr hmem
  have hsplit := List.take_append_drop count (rowids.insertionSort (· ≥ ·))
  have hdrop : rowid ∈ (rowids.insertionSort (· ≥ ·)).drop count := by
    rw [← hsplit] at hin
    rcases List.mem_append.mp hin with htake | hdrop
    · exact absurd htake h
    · exact hdrop
  constructor
  · have hlength := List.length_pos_of_mem hdrop
    rw [List.length_drop] at hlength
    rw [newest, List.length_take]
    omega
  · intro newer hnewer
    rw [← hsplit] at hsorted
    have hle := (List.pairwise_append.mp hsorted).2.2 newer hnewer rowid hdrop
    exact Nat.lt_of_le_of_ne hle fun heq => h (heq ▸ hnewer)

/-- The writes of the journal; an acknowledgement is labelled with its command
and the number of rows it retains. -/
inductive CommandWrite (table : CommandTable) :
    Option (Uuid × Nat) → CommandTable → Prop
  | same : CommandWrite table none table
  | inserted (row : FileCommandRow) (next : CommandTable)
      (insert : table.insert? row = some next)
      (rowid : row.rowid = nextRowid table) (receipt : row.receipt = none)
      (state : row.state = .executing) (delivered : row.delivered = false) :
      CommandWrite table none next
  | received (id : Uuid) (receipt : CompleteBridgeCommandInput)
      (free : ∀ row ∈ table.rows, row.commandId = id →
        row.receipt = none ∨ row.receipt = some receipt) :
      CommandWrite table none
        (setReceipt table id (stateAfter receipt) receipt)
  | acknowledged (id : Uuid) (count : Nat) (retains : 0 < count) :
      CommandWrite table (some (id, count))
        (pruneSettled (markDelivered table id) count)

theorem ordered_map {rows : List FileCommandRow}
    {f : FileCommandRow → FileCommandRow}
    (hrowid : ∀ row, (f row).rowid = row.rowid)
    (h : rows.Pairwise fun row later => row.rowid < later.rowid) :
    (rows.map f).Pairwise fun row later => row.rowid < later.rowid := by
  rw [List.pairwise_map]
  refine h.imp ?_
  intro row later hlt
  rw [hrowid, hrowid]
  exact hlt

/-- The row of a command once its receipt is set. -/
def receivedRow (id : Uuid) (receipt : CompleteBridgeCommandInput)
    (row : FileCommandRow) : FileCommandRow :=
  if row.commandId = id then
    { row with state := stateAfter receipt, receipt := some receipt }
  else row

theorem setReceipt_rows (table : CommandTable) (id : Uuid)
    (receipt : CompleteBridgeCommandInput) :
    (setReceipt table id (stateAfter receipt) receipt).rows =
      table.rows.map (receivedRow id receipt) := by
  simp only [setReceipt, Table.updateWhere, decide_eq_true_eq]
  rfl

/-- The row of a command once its delivery is marked. -/
def deliveredRow (id : Uuid) (row : FileCommandRow) : FileCommandRow :=
  if row.commandId = id && row.receipt.isSome then
    { row with delivered := true }
  else row

theorem markDelivered_rows (table : CommandTable) (id : Uuid) :
    (markDelivered table id).rows = table.rows.map (deliveredRow id) := rfl

@[simp] theorem receivedRow_rowid (id : Uuid)
    (receipt : CompleteBridgeCommandInput) (row : FileCommandRow) :
    (receivedRow id receipt row).rowid = row.rowid := by
  by_cases h : row.commandId = id <;> simp [receivedRow, h]

@[simp] theorem deliveredRow_rowid (id : Uuid) (row : FileCommandRow) :
    (deliveredRow id row).rowid = row.rowid := by
  by_cases h : (row.commandId = id && row.receipt.isSome) = true <;>
    simp only [deliveredRow, h] <;> rfl

theorem receivedRow_kept {id : Uuid} {receipt : CompleteBridgeCommandInput}
    (hstate : row.state = stateOf row.receipt)
    (hfree : row.commandId = id →
      row.receipt = none ∨ row.receipt = some receipt) :
    RowKept row (receivedRow id receipt row) := by
  by_cases hid : row.commandId = id
  · simp only [receivedRow, hid, if_true]
    refine ⟨rfl, hid.symm, rfl, rfl, ?_, fun h => h, ?_⟩
    · intro before hbefore
      rcases hfree hid with hnone | hsome
      · rw [hnone] at hbefore
        cases hbefore
      · rw [← hbefore, hsome]
    · intro hdone
      rcases hfree hid with hnone | hsome
      · rw [hstate, hnone] at hdone
        exact absurd rfl hdone
      · rw [hstate, hsome]
        rfl
  · simp only [receivedRow, hid, if_false]
    exact RowKept.refl row

theorem deliveredRow_kept (id : Uuid) (row : FileCommandRow) :
    RowKept row (deliveredRow id row) := by
  by_cases h : (row.commandId = id && row.receipt.isSome) = true
  · simp only [deliveredRow, h, if_true]
    exact ⟨rfl, rfl, rfl, rfl, fun _ hr => hr, fun _ => rfl, fun _ => rfl⟩
  · rw [deliveredRow, if_neg h]
    exact RowKept.refl row

theorem markDelivered_wellFormed (h : CommandsWellFormed table) (id : Uuid) :
    CommandsWellFormed (markDelivered table id) := by
  refine ⟨?_, ?_, ?_⟩
  · rw [markDelivered_rows]
    exact ordered_map (deliveredRow_rowid id) h.ordered
  · intro row hrow
    rw [markDelivered_rows] at hrow
    obtain ⟨before, hbefore, rfl⟩ := List.mem_map.mp hrow
    have hstate := h.state before hbefore
    by_cases hid : (before.commandId = id && before.receipt.isSome) = true
    · simpa only [deliveredRow, hid, if_true] using hstate
    · rw [deliveredRow, if_neg hid]
      exact hstate
  · intro row hrow hdelivered
    rw [markDelivered_rows] at hrow
    obtain ⟨before, hbefore, rfl⟩ := List.mem_map.mp hrow
    by_cases hid : (before.commandId = id && before.receipt.isSome) = true
    · simp only [deliveredRow, hid, if_true]
      rw [Bool.and_eq_true] at hid
      exact Option.isSome_iff_ne_none.mp hid.2
    · rw [deliveredRow, if_neg hid] at hdelivered ⊢
      exact h.delivered before hbefore hdelivered

theorem pruneSettled_wellFormed (h : CommandsWellFormed table) (count : Nat) :
    CommandsWellFormed (pruneSettled table count) where
  ordered := h.ordered.filter _
  state := fun row hrow => h.state row (List.mem_filter.mp hrow).1
  delivered := fun row hrow => h.delivered row (List.mem_filter.mp hrow).1

/-- Every write keeps the table well formed. -/
theorem CommandWrite.wellFormed (hwrite : CommandWrite table pruning next)
    (h : CommandsWellFormed table) : CommandsWellFormed next := by
  cases hwrite with
  | same => exact h
  | inserted row _ hinsert hrowid hreceipt hstate hdelivered =>
    have hrows := (Table.insert?_eq_some hinsert).2
    refine ⟨?_, ?_, ?_⟩
    · rw [hrows, List.pairwise_append]
      refine ⟨h.ordered, List.pairwise_singleton _ _, ?_⟩
      intro before hbefore added hadded
      rw [List.mem_singleton.mp hadded, hrowid]
      exact rowid_lt_nextRowid hbefore
    · intro added hadded
      rw [hrows] at hadded
      rcases List.mem_append.mp hadded with hold | hnew
      · exact h.state added hold
      · rw [List.mem_singleton.mp hnew, hreceipt, hstate]
        rfl
    · intro added hadded hmark
      rw [hrows] at hadded
      rcases List.mem_append.mp hadded with hold | hnew
      · exact h.delivered added hold hmark
      · rw [List.mem_singleton.mp hnew, hdelivered] at hmark
        cases hmark
  | received id receipt hfree =>
    refine ⟨?_, ?_, ?_⟩
    · rw [setReceipt_rows]
      exact ordered_map (receivedRow_rowid id receipt) h.ordered
    · intro row hrow
      rw [setReceipt_rows] at hrow
      obtain ⟨before, hbefore, rfl⟩ := List.mem_map.mp hrow
      by_cases hid : before.commandId = id
      · simp only [receivedRow, hid, if_true]
        rfl
      · simp only [receivedRow, hid, if_false]
        exact h.state before hbefore
    · intro row hrow
      rw [setReceipt_rows] at hrow
      obtain ⟨before, hbefore, rfl⟩ := List.mem_map.mp hrow
      by_cases hid : before.commandId = id
      · simp [receivedRow, hid]
      · simp only [receivedRow, hid, if_false]
        exact h.delivered before hbefore
  | acknowledged id count hretains =>
    exact pruneSettled_wellFormed (markDelivered_wellFormed h id) count

/-- A row that a pruning has taken out: the server has its known outcome, and
`count` newer rows of that kind remain. -/
structure PrunedBehind (id : Uuid) (count : Nat) (next : CommandTable)
    (row : FileCommandRow) : Prop where
  completed : row.state = .completed
  delivered : row.delivered = true ∨ row.commandId = id
  gone : ∀ other ∈ next.rows, other.rowid ≠ row.rowid
  behind : count ≤ (next.rows.filter fun newer =>
    newer.isSettled && decide (row.rowid < newer.rowid)).length

theorem deliveredRow_settled {id : Uuid}
    (h : (deliveredRow id row).isSettled = true) :
    row.state = .completed ∧ (row.delivered = true ∨ row.commandId = id) := by
  simp only [FileCommandRow.isSettled, Bool.and_eq_true, beq_iff_eq] at h
  by_cases hid : (row.commandId = id && row.receipt.isSome) = true
  · have hcommand : row.commandId = id := by
      rw [Bool.and_eq_true] at hid
      exact of_decide_eq_true hid.1
    simp only [deliveredRow, hid, if_true] at h
    exact ⟨h.2, .inr hcommand⟩
  · rw [deliveredRow, if_neg hid] at h
    exact ⟨h.2, .inl h.1⟩

/-- What a pruning drops lies behind as many rows as are retained. -/
theorem pruneSettled_behind (h : CommandsWellFormed table) {count : Nat}
    (hrow : row ∈ table.rows) (hsettled : row.isSettled = true)
    (hdropped : row.rowid ∉ retained table count) :
    count ≤ ((pruneSettled table count).rows.filter fun newer =>
      newer.isSettled && decide (row.rowid < newer.rowid)).length := by
  have hmem : row.rowid ∈ (table.rows.filter FileCommandRow.isSettled).map
      FileCommandRow.rowid :=
    List.mem_map_of_mem (List.mem_filter.mpr ⟨hrow, hsettled⟩)
  obtain ⟨hlength, hnewer⟩ := not_mem_newest hmem hdropped
  have hdistinct : (newest ((table.rows.filter FileCommandRow.isSettled).map
      FileCommandRow.rowid) count).Nodup := by
    have hrowids : ((table.rows.filter FileCommandRow.isSettled).map
        FileCommandRow.rowid).Nodup := by
      rw [List.nodup_iff_pairwise_ne, List.pairwise_map]
      exact (h.ordered.filter _).imp fun hlt => Nat.ne_of_lt hlt
    exact ((List.perm_insertionSort _ _).nodup_iff.mpr hrowids).sublist
      (List.take_sublist _ _)
  have hsubset : newest ((table.rows.filter FileCommandRow.isSettled).map
      FileCommandRow.rowid) count ⊆
        ((pruneSettled table count).rows.filter fun newer =>
          newer.isSettled && decide (row.rowid < newer.rowid)).map
            FileCommandRow.rowid := by
    intro rowid hrowid
    have hsorted := (List.mem_insertionSort _).mp (List.mem_of_mem_take hrowid)
    obtain ⟨newer, hin, rfl⟩ := List.mem_map.mp hsorted
    obtain ⟨hold, hdone⟩ := List.mem_filter.mp hin
    refine List.mem_map_of_mem (List.mem_filter.mpr ⟨?_, ?_⟩)
    · refine List.mem_filter.mpr ⟨hold, ?_⟩
      have hkept : newer.rowid ∈ retained table count := hrowid
      simp [hkept]
    · simp [hdone, hnewer newer.rowid hrowid]
  have hle := (hdistinct.subperm hsubset).length_le
  rwa [hlength, List.length_map] at hle

/-- An acknowledgement keeps a row, or prunes it behind its newer ones. -/
theorem acknowledged_row (h : CommandsWellFormed table) (id : Uuid)
    (count : Nat) (hrow : row ∈ table.rows) :
    (∃ later ∈ (pruneSettled (markDelivered table id) count).rows,
        RowKept row later) ∨
      PrunedBehind id count (pruneSettled (markDelivered table id) count)
        row := by
  have hmarked := markDelivered_wellFormed h id
  have hmem : deliveredRow id row ∈ (markDelivered table id).rows := by
    rw [markDelivered_rows]
    exact List.mem_map_of_mem hrow
  by_cases hgone : (deliveredRow id row).isSettled = true ∧
      row.rowid ∉ retained (markDelivered table id) count
  · have hsettled := deliveredRow_settled hgone.1
    refine .inr ⟨hsettled.1, hsettled.2, ?_, ?_⟩
    · intro other hother heq
      obtain ⟨hin, hkeep⟩ := List.mem_filter.mp hother
      have hsame := hmarked.rowid_inj hin hmem
        (by rw [heq, deliveredRow_rowid])
      subst hsame
      simp [hgone.1, hgone.2] at hkeep
    · have hbehind := pruneSettled_behind hmarked hmem hgone.1
        (by rw [deliveredRow_rowid]; exact hgone.2)
      rwa [deliveredRow_rowid] at hbehind
  · refine .inl ⟨deliveredRow id row, List.mem_filter.mpr ⟨hmem, ?_⟩,
      deliveredRow_kept id row⟩
    by_cases hsettled : (deliveredRow id row).isSettled = true
    · have hkept : row.rowid ∈ retained (markDelivered table id) count := by
        by_contra hout
        exact hgone ⟨hsettled, hout⟩
      simp [hsettled, hkept]
    · simp [hsettled]

/-- The row as a write that prunes nothing leaves it. -/
theorem CommandWrite.kept (hwrite : CommandWrite table pruning next)
    (h : CommandsWellFormed table) (hrow : row ∈ table.rows) :
    (∃ later ∈ next.rows, RowKept row later) ∨
      ∃ id count, pruning = some (id, count) ∧ 0 < count ∧
        PrunedBehind id count next row := by
  cases hwrite with
  | same => exact .inl ⟨row, hrow, RowKept.refl row⟩
  | inserted added _ hinsert =>
    refine .inl ⟨row, ?_, RowKept.refl row⟩
    rw [(Table.insert?_eq_some hinsert).2]
    exact List.mem_append_left _ hrow
  | received id receipt hfree =>
    refine .inl ⟨receivedRow id receipt row, ?_,
      receivedRow_kept (h.state row hrow) (hfree row hrow)⟩
    rw [setReceipt_rows]
    exact List.mem_map_of_mem hrow
  | acknowledged id count hretains =>
    rcases acknowledged_row h id count hrow with hkept | hpruned
    · exact .inl hkept
    · exact .inr ⟨id, count, rfl, hretains, hpruned⟩

/-- Where the rows after a write come from. -/
theorem CommandWrite.origin (hwrite : CommandWrite table pruning next)
    (h : CommandsWellFormed table) {later : FileCommandRow}
    (hlater : later ∈ next.rows) :
    (∃ row ∈ table.rows, RowKept row later) ∨
      ∀ row ∈ table.rows, row.rowid < later.rowid := by
  cases hwrite with
  | same => exact .inl ⟨later, hlater, RowKept.refl later⟩
  | inserted added _ hinsert hrowid =>
    rw [(Table.insert?_eq_some hinsert).2] at hlater
    rcases List.mem_append.mp hlater with hold | hnew
    · exact .inl ⟨later, hold, RowKept.refl later⟩
    · refine .inr ?_
      intro row hrow
      rw [List.mem_singleton.mp hnew, hrowid]
      exact rowid_lt_nextRowid hrow
  | received id receipt hfree =>
    rw [setReceipt_rows] at hlater
    obtain ⟨row, hrow, rfl⟩ := List.mem_map.mp hlater
    exact .inl ⟨row, hrow,
      receivedRow_kept (h.state row hrow) (hfree row hrow)⟩
  | acknowledged id count hretains =>
    have hmarked := (List.mem_filter.mp hlater).1
    rw [markDelivered_rows] at hmarked
    obtain ⟨row, hrow, rfl⟩ := List.mem_map.mp hmarked
    exact .inl ⟨row, hrow, deliveredRow_kept id row⟩

/-- What any number of writes keeps: unknown outcomes stay, the largest row id
never falls, and a new row is newer than every row before it. -/
structure Onward (table next : CommandTable) : Prop where
  unknown : ∀ row ∈ table.rows, row.state = .unknown →
    ∃ later ∈ next.rows, RowKept row later
  newest : ∀ row ∈ table.rows, ∃ later ∈ next.rows, row.rowid ≤ later.rowid
  origin : ∀ later ∈ next.rows, (∃ row ∈ table.rows, RowKept row later) ∨
    ∀ row ∈ table.rows, row.rowid < later.rowid

theorem Onward.refl (table : CommandTable) : Onward table table :=
  ⟨fun row hrow _ => ⟨row, hrow, RowKept.refl row⟩,
    fun row hrow => ⟨row, hrow, le_refl _⟩,
    fun row hrow => .inl ⟨row, hrow, RowKept.refl row⟩⟩

theorem Onward.trans {first second third : CommandTable}
    (h : Onward first second) (h' : Onward second third) :
    Onward first third := by
  refine ⟨?_, ?_, ?_⟩
  · intro row hrow hunknown
    obtain ⟨between, hbetween, hkept⟩ := h.unknown row hrow hunknown
    have hstill : between.state = .unknown := by
      rw [hkept.state (by simp [hunknown]), hunknown]
    obtain ⟨later, hlater, hkept'⟩ := h'.unknown between hbetween hstill
    exact ⟨later, hlater, hkept.trans hkept'⟩
  · intro row hrow
    obtain ⟨between, hbetween, hle⟩ := h.newest row hrow
    obtain ⟨later, hlater, hle'⟩ := h'.newest between hbetween
    exact ⟨later, hlater, hle.trans hle'⟩
  · intro later hlater
    rcases h'.origin later hlater with ⟨between, hbetween, hkept'⟩ | hnew
    · rcases h.origin between hbetween with ⟨row, hrow, hkept⟩ | hnew
      · exact .inl ⟨row, hrow, hkept.trans hkept'⟩
      · refine .inr ?_
        intro row hrow
        rw [hkept'.rowid]
        exact hnew row hrow
    · refine .inr ?_
      intro row hrow
      obtain ⟨between, hbetween, hle⟩ := h.newest row hrow
      exact hle.trans_lt (hnew between hbetween)

theorem CommandWrite.onward (hwrite : CommandWrite table pruning next)
    (h : CommandsWellFormed table) : Onward table next := by
  refine ⟨?_, ?_, fun later hlater => hwrite.origin h hlater⟩
  · intro row hrow hunknown
    rcases hwrite.kept h hrow with hkept | ⟨id, count, _, hpos, hpruned⟩
    · exact hkept
    · rw [hpruned.completed] at hunknown
      cases hunknown
  · intro row hrow
    rcases hwrite.kept h hrow with
      ⟨later, hlater, hkept⟩ | ⟨id, count, _, hpos, hpruned⟩
    · exact ⟨later, hlater, hkept.rowid.ge⟩
    · obtain ⟨newer, hnewer⟩ := List.exists_mem_of_length_pos
        (hpos.trans_le hpruned.behind)
      obtain ⟨hin, hlt⟩ := List.mem_filter.mp hnewer
      rw [Bool.and_eq_true] at hlt
      exact ⟨newer, hin, (of_decide_eq_true hlt.2).le⟩

end Allrice
