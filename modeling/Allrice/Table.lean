/-
Tables with a primary key.  The rows stand in the order in which they were
inserted, and the type itself excludes two rows with one key, so no lemma about
a lookup has to assume it.
-/
import Mathlib

universe u v

/-- Rows in insertion order, no two of them with the same key. -/
structure Table (κ : Type u) (ρ : Type v) (key : ρ → κ) where
  rows : List ρ
  unique : (rows.map key).Nodup

namespace Table

variable {κ : Type u} {ρ : Type v} {key : ρ → κ} [DecidableEq κ]

/-- The table that holds nothing. -/
def empty : Table κ ρ key := ⟨[], by simp⟩

/-- `SELECT … WHERE key = k`. -/
def find? (t : Table κ ρ key) (k : κ) : Option ρ :=
  t.rows.find? fun row => key row = k

/-- `INSERT`; a key that is there already is a constraint error. -/
def insert? (t : Table κ ρ key) (row : ρ) : Option (Table κ ρ key) :=
  if h : key row ∈ t.rows.map key then none
  else some ⟨t.rows ++ [row], by
    simp only [List.map_append, List.map_cons, List.map_nil]
    exact List.nodup_append.2 ⟨t.unique, by simp, by
      intro a ha b hb
      simp only [List.mem_singleton] at hb
      subst hb
      exact fun heq => h (heq ▸ ha)⟩⟩

/-- `UPDATE … WHERE key = key row`: every column takes the value in `row`. -/
def replace (t : Table κ ρ key) (row : ρ) : Table κ ρ key :=
  ⟨t.rows.map fun old => if key old = key row then row else old, by
    have hkeys : ((t.rows.map fun old =>
        if key old = key row then row else old).map key) = t.rows.map key := by
      rw [List.map_map]
      refine List.map_congr_left ?_
      intro old _
      by_cases h : key old = key row
      · simp [h]
      · simp [h]
    rw [hkeys]
    exact t.unique⟩

/-- `UPDATE … WHERE p`: the columns that `f` changes are not the key. -/
def updateWhere (t : Table κ ρ key) (p : ρ → Bool) (f : ρ → ρ)
    (hkey : ∀ row, key (f row) = key row) : Table κ ρ key :=
  ⟨t.rows.map fun row => if p row then f row else row, by
    have hkeys : ((t.rows.map fun row => if p row then f row else row).map
        key) = t.rows.map key := by
      rw [List.map_map]
      refine List.map_congr_left ?_
      intro row _
      by_cases h : p row
      · simp [h, hkey]
      · simp [h]
    rw [hkeys]
    exact t.unique⟩

/-- `DELETE … WHERE p`. -/
def deleteWhere (t : Table κ ρ key) (p : ρ → Bool) : Table κ ρ key :=
  ⟨t.rows.filter fun row => !p row,
    t.unique.sublist (List.filter_sublist.map key)⟩

@[simp] theorem find?_empty (k : κ) :
    (empty : Table κ ρ key).find? k = none := rfl

variable {t next : Table κ ρ key} {row old : ρ} {k : κ}

theorem key_of_find? (h : t.find? k = some row) : key row = k := by
  simpa using List.find?_some h

theorem mem_of_find? (h : t.find? k = some row) : row ∈ t.rows :=
  List.mem_of_find?_eq_some h

theorem find?_eq_some_iff :
    t.find? k = some row ↔ row ∈ t.rows ∧ key row = k := by
  constructor
  · intro h
    exact ⟨mem_of_find? h, key_of_find? h⟩
  · rintro ⟨hmem, rfl⟩
    have hunique := t.unique
    unfold find?
    generalize t.rows = rows at hmem hunique ⊢
    induction rows with
    | nil => simp at hmem
    | cons head tail ih =>
      simp only [List.map_cons, List.nodup_cons] at hunique
      rcases List.mem_cons.1 hmem with rfl | htail
      · simp
      · have hne : key head ≠ key row := by
          intro heq
          exact hunique.1 (heq ▸ List.mem_map_of_mem htail)
        simpa [List.find?_cons, hne] using ih htail hunique.2

theorem find?_eq_none_iff : t.find? k = none ↔ ∀ row ∈ t.rows, key row ≠ k := by
  simp [find?, List.find?_eq_none]

theorem find?_of_mem (h : row ∈ t.rows) : t.find? (key row) = some row :=
  find?_eq_some_iff.2 ⟨h, rfl⟩

theorem insert?_eq_some (h : t.insert? row = some next) :
    t.find? (key row) = none ∧ next.rows = t.rows ++ [row] := by
  unfold insert? at h
  split at h
  · simp at h
  · rename_i hfresh
    simp only [Option.some.injEq] at h
    subst h
    refine ⟨find?_eq_none_iff.2 ?_, rfl⟩
    intro other hother heq
    exact hfresh (heq ▸ List.mem_map_of_mem hother)

theorem find?_insert? (h : t.insert? row = some next) (k : κ) :
    next.find? k = if key row = k then some row else t.find? k := by
  obtain ⟨hnone, hrows⟩ := insert?_eq_some h
  unfold find? at hnone ⊢
  rw [hrows, List.find?_append]
  by_cases hk : key row = k
  · subst hk
    simp [hnone]
  · simp [hk]

theorem mem_replace {other : ρ} :
    other ∈ (t.replace row).rows ↔
      (other ∈ t.rows ∧ key other ≠ key row) ∨
        (other = row ∧ (t.find? (key row)).isSome) := by
  simp only [replace, List.mem_map]
  constructor
  · rintro ⟨old, hold, heq⟩
    by_cases h : key old = key row
    · right
      simp only [h, ↓reduceIte] at heq
      refine ⟨heq.symm, ?_⟩
      rw [← h, find?_of_mem hold]
      rfl
    · left
      simp only [h, ↓reduceIte] at heq
      exact heq ▸ ⟨hold, h⟩
  · rintro (⟨hmem, hne⟩ | ⟨rfl, hsome⟩)
    · exact ⟨other, hmem, by simp [hne]⟩
    · obtain ⟨old, hold⟩ := Option.isSome_iff_exists.1 hsome
      exact ⟨old, mem_of_find? hold, by simp [key_of_find? hold]⟩

theorem find?_replace (t : Table κ ρ key) (row : ρ) (k : κ) :
    (t.replace row).find? k =
      if key row = k then (t.find? k).map fun _ => row else t.find? k := by
  by_cases hk : key row = k
  · subst hk
    simp only [↓reduceIte]
    cases hfind : t.find? (key row) with
    | none =>
      rw [Option.map_none, find?_eq_none_iff]
      intro other hother
      rw [mem_replace, hfind] at hother
      rcases hother with ⟨_, hne⟩ | ⟨_, hsome⟩
      · exact hne
      · simp at hsome
    | some old =>
      rw [Option.map_some, find?_eq_some_iff, mem_replace, hfind]
      exact ⟨.inr ⟨rfl, rfl⟩, rfl⟩
  · simp only [hk, ↓reduceIte]
    cases hfind : t.find? k with
    | none =>
      rw [find?_eq_none_iff] at hfind ⊢
      intro other hother
      rcases mem_replace.1 hother with ⟨hmem, _⟩ | ⟨rfl, _⟩
      · exact hfind other hmem
      · exact hk
    | some old =>
      obtain ⟨hmem, hkey⟩ := find?_eq_some_iff.1 hfind
      rw [find?_eq_some_iff, mem_replace]
      refine ⟨.inl ⟨hmem, ?_⟩, hkey⟩
      rw [hkey]
      exact fun heq => hk heq.symm

theorem find?_replace_self (h : t.find? (key row) = some old) :
    (t.replace row).find? (key row) = some row := by
  simp [find?_replace, h]

theorem find?_replace_ne (t : Table κ ρ key) (h : key row ≠ k) :
    (t.replace row).find? k = t.find? k := by
  simp [find?_replace, h]

/-- What a selection shows of its rows stays when one row is replaced by another
of which it shows the same. -/
theorem map_filter_replace {β : Type*} {p : ρ → Bool} {f : ρ → β}
    (h : t.find? k = some old) (hkey : key row = key old) (hp : p row = p old)
    (hf : f row = f old) :
    ((t.replace row).rows.filter p).map f = (t.rows.filter p).map f := by
  have hsame : ∀ other ∈ t.rows, key other = key row → other = old := by
    intro other hother heq
    rw [hkey, key_of_find? h] at heq
    have hfound := find?_eq_some_iff.2 ⟨hother, heq⟩
    rw [h] at hfound
    exact (Option.some.inj hfound).symm
  simp only [replace, List.filter_map, List.map_map]
  have hfilter : t.rows.filter (p ∘ fun other =>
      if key other = key row then row else other) = t.rows.filter p := by
    apply List.filter_congr
    intro other hother
    by_cases heq : key other = key row
    · obtain rfl := hsame other hother heq
      simp [hkey, hp]
    · simp [heq]
  rw [hfilter]
  apply List.map_congr_left
  intro other hother
  by_cases heq : key other = key row
  · obtain rfl := hsame other (List.mem_of_mem_filter hother) heq
    simp [hkey, hf]
  · simp [heq]

/-- Of two updates of one row the last one stays. -/
theorem replace_replace (t : Table κ ρ key) (first second : ρ)
    (h : key second = key first) :
    (t.replace first).replace second = t.replace second := by
  have hrows : ((t.replace first).replace second).rows =
      (t.replace second).rows := by
    simp only [replace, List.map_map]
    refine List.map_congr_left fun old _ => ?_
    by_cases hkey : key old = key first
    · simp [hkey, h]
    · simp [hkey, h]
  generalize ht : (t.replace first).replace second = left at hrows ⊢
  generalize hs : t.replace second = right at hrows ⊢
  cases left
  cases right
  simp_all

/-- Writing back the row that is there changes nothing. -/
theorem replace_eq_self (h : t.find? (key row) = some row) :
    t.replace row = t := by
  have hrows : (t.replace row).rows = t.rows := by
    conv_rhs => rw [← List.map_id t.rows]
    refine List.map_congr_left fun old hold => ?_
    by_cases hkey : key old = key row
    · have hfound := find?_of_mem hold
      rw [hkey, h] at hfound
      simp [hkey, Option.some.inj hfound]
    · simp [hkey]
  cases t
  simp only [replace] at hrows ⊢
  simp only [hrows]

/-- A total over the rows grows by what an inserted row contributes. -/
theorem sum_insert? (f : ρ → ℤ) (h : t.insert? row = some next) :
    (next.rows.map f).sum = (t.rows.map f).sum + f row := by
  rw [(insert?_eq_some h).2]
  simp

/-- A total over the rows changes by the difference between the row that is
replaced and the row that replaces it. -/
theorem sum_replace (f : ρ → ℤ) (h : t.find? (key row) = some old) :
    ((t.replace row).rows.map f).sum + f old =
      (t.rows.map f).sum + f row := by
  obtain ⟨hmem, hkey⟩ := find?_eq_some_iff.1 h
  have hunique := t.unique
  simp only [replace]
  generalize t.rows = rows at hmem hunique ⊢
  induction rows with
  | nil => simp at hmem
  | cons head tail ih =>
    simp only [List.map_cons, List.nodup_cons] at hunique
    rcases List.mem_cons.1 hmem with rfl | htail
    · have hrest : (tail.map fun o => if key o = key row then row else o)
          = tail := by
        conv_rhs => rw [← List.map_id tail]
        refine List.map_congr_left ?_
        intro other hother
        have hne : key other ≠ key row := by
          intro heq
          exact hunique.1 (hkey ▸ heq ▸ List.mem_map_of_mem hother)
        simp [hne]
      simp only [List.map_cons, List.sum_cons, hkey, ↓reduceIte, hrest]
      omega
    · have hne : key head ≠ key row := by
        intro heq
        exact hunique.1
          ((heq.trans hkey.symm) ▸ List.mem_map_of_mem htail)
      have htailSum := ih htail hunique.2
      simp only [List.map_cons, List.sum_cons, hne, ↓reduceIte]
      omega

/-- `Map.set`: a row of the same key is replaced where it stands, and another
comes last. -/
def put (t : Table κ ρ key) (row : ρ) : Table κ ρ key :=
  match t.insert? row with
  | some next => next
  | none => t.replace row

theorem mem_put {other : ρ} :
    other ∈ (t.put row).rows ↔
      (other ∈ t.rows ∧ key other ≠ key row) ∨ other = row := by
  unfold put
  cases hinsert : t.insert? row with
  | some next =>
    obtain ⟨hnone, hrows⟩ := insert?_eq_some hinsert
    have hother := find?_eq_none_iff.1 hnone
    simp only [hrows, List.mem_append, List.mem_singleton]
    constructor
    · rintro (hmem | hsame)
      · exact .inl ⟨hmem, hother other hmem⟩
      · exact .inr hsame
    · rintro (⟨hmem, _⟩ | hsame)
      · exact .inl hmem
      · exact .inr hsame
  | none =>
    have hsome : (t.find? (key row)).isSome = true := by
      cases hfind : t.find? (key row) with
      | some old => rfl
      | none =>
        have hnot := find?_eq_none_iff.1 hfind
        unfold insert? at hinsert
        rw [dif_neg] at hinsert
        · cases hinsert
        · intro hmem
          obtain ⟨old, hold, hkey⟩ := List.mem_map.1 hmem
          exact hnot old hold hkey
    simp only [mem_replace, hsome, and_true]

theorem find?_put (t : Table κ ρ key) (row : ρ) (k : κ) :
    (t.put row).find? k = if key row = k then some row else t.find? k := by
  by_cases hk : key row = k
  · rw [if_pos hk, find?_eq_some_iff, mem_put]
    exact ⟨.inr rfl, hk⟩
  · rw [if_neg hk]
    cases hfind : t.find? k with
    | none =>
      rw [find?_eq_none_iff] at hfind ⊢
      intro other hother
      rcases mem_put.1 hother with ⟨hmem, _⟩ | rfl
      · exact hfind other hmem
      · exact hk
    | some old =>
      obtain ⟨hmem, hkey⟩ := find?_eq_some_iff.1 hfind
      rw [find?_eq_some_iff, mem_put]
      refine ⟨.inl ⟨hmem, ?_⟩, hkey⟩
      rw [hkey]
      exact fun heq => hk heq.symm

/-- `new Map(rows)`, where a later row of a key takes an earlier one's
place. -/
def putAll (t : Table κ ρ key) (rows : List ρ) : Table κ ρ key :=
  rows.foldl put t

/-- Putting rows of distinct keys keeps the rows whose key none of them has. -/
theorem mem_putAll {rows : List ρ} (hrows : (rows.map key).Nodup) :
    row ∈ (t.putAll rows).rows ↔
      row ∈ rows ∨ (row ∈ t.rows ∧ ∀ other ∈ rows, key other ≠ key row) := by
  induction rows generalizing t with
  | nil => simp [putAll]
  | cons head rest ih =>
    rw [List.map_cons, List.nodup_cons] at hrows
    have hfresh : ∀ other ∈ rest, key other ≠ key head := by
      intro other hother heq
      exact hrows.1 (heq ▸ List.mem_map_of_mem hother)
    have hput : t.putAll (head :: rest) = (t.put head).putAll rest := rfl
    rw [hput, ih hrows.2, mem_put]
    constructor
    · rintro (hrest | ⟨⟨hold, hne⟩ | rfl, hother⟩)
      · exact .inl (List.mem_cons_of_mem _ hrest)
      · refine .inr ⟨hold, ?_⟩
        intro other hin
        rcases List.mem_cons.mp hin with rfl | hin
        · exact fun heq => hne heq.symm
        · exact hother other hin
      · exact .inl List.mem_cons_self
    · rintro (hin | ⟨hold, hother⟩)
      · rcases List.mem_cons.mp hin with rfl | hrest
        · exact .inr ⟨.inr rfl, fun other hother => hfresh other hother⟩
        · exact .inl hrest
      · exact .inr ⟨.inl ⟨hold, fun heq =>
          hother head List.mem_cons_self heq.symm⟩,
          fun other hin => hother other (List.mem_cons_of_mem _ hin)⟩

/-- Rows that are inserted one after the other. -/
def insertAll? : List ρ → Table κ ρ key → Option (Table κ ρ key)
  | [], t => some t
  | row :: rest, t => (t.insert? row).bind (insertAll? rest)

theorem rows_insertAll? {rows : List ρ} (h : insertAll? rows t = some next) :
    next.rows = t.rows ++ rows := by
  induction rows generalizing t with
  | nil =>
    cases h
    exact (List.append_nil _).symm
  | cons row rest ih =>
    obtain ⟨between, hinsert, hrest⟩ := Option.bind_eq_some_iff.mp h
    rw [ih hrest, (insert?_eq_some hinsert).2, List.append_assoc]
    rfl

end Table
