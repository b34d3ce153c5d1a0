/-
A daemon that keeps containers.  Names are unique among the containers it has,
identifiers are never used twice, each request is atomic, and a running
container is not deleted.
-/
import Mathlib

namespace ContainerDaemon

abbrev ContainerId := Nat

inductive Status
  | created | running | exited
deriving DecidableEq

structure Container (Name Labels : Type) where
  id : ContainerId
  name : Name
  labels : Labels
  status : Status
deriving DecidableEq

/-- `made` has the name and the labels of every container there ever was, at its
identifier, and `started` those that ever ran. -/
structure Daemon (Name Labels : Type) where
  containers : List (Container Name Labels)
  made : List (Name × Labels)
  started : List ContainerId

inductive Request (Name Labels : Type)
  | create (name : Name) (labels : Labels)
  | delete (id : ContainerId)
  | start (id : ContainerId)
deriving DecidableEq

inductive Query (Name Labels : Type)
  | name (name : Name)
  | id (id : ContainerId)
  | list (chosen : Labels → Bool)

inductive Reply (Name Labels : Type)
  | created (id : ContainerId)
  | found (container : Container Name Labels)
  | ids (ids : List ContainerId)
  | done
  | missing
  | conflict

variable {Name Labels : Type}

namespace Daemon

def empty : Daemon Name Labels := ⟨[], [], []⟩

def ofId (d : Daemon Name Labels) (id : ContainerId) :
    Option (Container Name Labels) :=
  d.containers.find? (·.id == id)

def setStatus (d : Daemon Name Labels) (id : ContainerId) (status : Status) :
    List (Container Name Labels) :=
  d.containers.map fun c => if c.id = id then { c with status } else c

/-- A container's process ends. -/
def exit (d : Daemon Name Labels) (id : ContainerId) : Daemon Name Labels :=
  match d.ofId id with
  | some c =>
    if c.status = .running then
      { d with containers := d.setStatus id .exited }
    else d
  | none => d

section Serving

variable [DecidableEq Name] (d : Daemon Name Labels)

def ofName (name : Name) : Option (Container Name Labels) :=
  d.containers.find? (·.name == name)

def answer : Query Name Labels → Reply Name Labels
  | .name name => ((d.ofName name).map .found).getD .missing
  | .id id => ((d.ofId id).map .found).getD .missing
  | .list chosen => .ids ((d.containers.filter (chosen ·.labels)).map (·.id))

def serve : Request Name Labels → Daemon Name Labels × Reply Name Labels
  | .create name labels =>
    match d.ofName name with
    | some _ => (d, .conflict)
    | none =>
      ({ d with
          containers := d.containers ++
            [⟨d.made.length, name, labels, .created⟩]
          made := d.made ++ [(name, labels)] },
        .created d.made.length)
  | .delete id =>
    match d.ofId id with
    | none => (d, .missing)
    | some c =>
      if c.status = .running then (d, .conflict)
      else
        ({ d with containers := d.containers.filter (·.id ≠ id) }, .done)
  | .start id =>
    match d.ofId id with
    | none => (d, .missing)
    | some c =>
      if c.status = .running then (d, .conflict)
      else
        ({ d with
            containers := d.setStatus id .running
            started := d.started ++ [id] }, .done)

end Serving

/-- The container of this identifier was made with this name and these labels. -/
def Made (d : Daemon Name Labels) (id : ContainerId) (name : Name)
    (labels : Labels) : Prop :=
  d.made[id]? = some (name, labels)

def Present (d : Daemon Name Labels) (id : ContainerId) : Prop :=
  ∃ c ∈ d.containers, c.id = id

/-- The container was made, and is deleted. -/
def Gone (d : Daemon Name Labels) (id : ContainerId) : Prop :=
  id < d.made.length ∧ ¬d.Present id

/-- The container is deleted, or its process has ended. -/
def Ended (d : Daemon Name Labels) (id : ContainerId) : Prop :=
  id < d.made.length ∧ ∀ c ∈ d.containers, c.id = id → c.status = .exited

structure Consistent (d : Daemon Name Labels) : Prop where
  made : ∀ c ∈ d.containers, d.Made c.id c.name c.labels
  ids : (d.containers.map (·.id)).Nodup
  names : (d.containers.map (·.name)).Nodup
  started : ∀ c ∈ d.containers, c.status = .created ↔ c.id ∉ d.started
  startedMade : ∀ id ∈ d.started, id < d.made.length

theorem empty_consistent : Consistent (empty : Daemon Name Labels) where
  made := nofun
  ids := List.nodup_nil
  names := List.nodup_nil
  started := nofun
  startedMade := nofun

variable {d d' : Daemon Name Labels} {id : ContainerId} {name : Name}
  {labels : Labels}

theorem Made.lt (h : d.Made id name labels) : id < d.made.length :=
  (List.getElem?_eq_some_iff.1 h).1

theorem Made.unique {name' : Name} {labels' : Labels}
    (h : d.Made id name labels) (h' : d.Made id name' labels') :
    name = name' ∧ labels = labels' := by
  have hsame := Option.some.inj (Eq.trans (Eq.symm h) h')
  exact ⟨congrArg Prod.fst hsame, congrArg Prod.snd hsame⟩

theorem Gone.ended (h : d.Gone id) : d.Ended id :=
  ⟨h.1, fun c hc hid => absurd ⟨c, hc, hid⟩ h.2⟩

variable {request : Request Name Labels} {reply : Reply Name Labels}
  {c c' : Container Name Labels}

theorem ofId_eq_some (h : d.ofId id = some c) : c ∈ d.containers ∧ c.id = id :=
  ⟨List.mem_of_find?_eq_some h, by simpa using List.find?_some h⟩

theorem ofId_eq_none : d.ofId id = none ↔ ¬d.Present id := by
  simp only [ofId, List.find?_eq_none, Present, not_exists, not_and, beq_iff_eq]

theorem ofName_eq_some [DecidableEq Name] (h : d.ofName name = some c) :
    c ∈ d.containers ∧ c.name = name :=
  ⟨List.mem_of_find?_eq_some h, by simpa using List.find?_some h⟩

theorem ofName_eq_none [DecidableEq Name] :
    d.ofName name = none ↔ ∀ c ∈ d.containers, c.name ≠ name := by
  simp only [ofName, List.find?_eq_none, beq_iff_eq, ne_eq]

namespace Consistent

variable {c : Container Name Labels}

theorem eq_of_id (h : d.Consistent) (hc : c ∈ d.containers)
    (hc' : c' ∈ d.containers) (hid : c.id = c'.id) : c = c' :=
  List.inj_on_of_nodup_map h.ids hc hc' hid

theorem eq_of_name (h : d.Consistent) (hc : c ∈ d.containers)
    (hc' : c' ∈ d.containers) (hname : c.name = c'.name) : c = c' :=
  List.inj_on_of_nodup_map h.names hc hc' hname

theorem ofId_self (h : d.Consistent) (hc : c ∈ d.containers) :
    d.ofId c.id = some c := by
  cases hid : d.ofId c.id with
  | none => exact absurd ⟨c, hc, rfl⟩ (ofId_eq_none.1 hid)
  | some c' =>
    obtain ⟨hc', hsame⟩ := ofId_eq_some hid
    rw [h.eq_of_id hc' hc hsame]

theorem lt (h : d.Consistent) (hc : c ∈ d.containers) :
    c.id < d.made.length := (h.made c hc).lt

theorem of_made (h : d.Consistent) (hc : c ∈ d.containers)
    (hmade : d.Made c.id name labels) : c.name = name ∧ c.labels = labels :=
  (h.made c hc).unique hmade

end Consistent

/-- The answers to a request, and the daemon after it. -/
inductive Served (d : Daemon Name Labels) :
    Request Name Labels → Daemon Name Labels → Reply Name Labels → Prop
  | taken {name : Name} {labels : Labels} {c : Container Name Labels} :
      c ∈ d.containers → c.name = name →
      Served d (.create name labels) d .conflict
  | created {name : Name} {labels : Labels} :
      (∀ c ∈ d.containers, c.name ≠ name) →
      Served d (.create name labels)
        { d with
          containers := d.containers ++
            [⟨d.made.length, name, labels, .created⟩]
          made := d.made ++ [(name, labels)] }
        (.created d.made.length)
  | deleted {c : Container Name Labels} : c ∈ d.containers →
      c.status ≠ .running →
      Served d (.delete c.id)
        { d with containers := d.containers.filter (·.id ≠ c.id) } .done
  | started {c : Container Name Labels} : c ∈ d.containers →
      c.status ≠ .running →
      Served d (.start c.id)
        { d with
          containers := d.setStatus c.id .running
          started := d.started ++ [c.id] } .done
  | busy {c : Container Name Labels} {request : Request Name Labels} :
      c ∈ d.containers → c.status = .running →
      (request = .delete c.id ∨ request = .start c.id) →
      Served d request d .conflict
  | missing {id : ContainerId} {request : Request Name Labels} :
      ¬d.Present id →
      (request = .delete id ∨ request = .start id) →
      Served d request d .missing

theorem serve_served [DecidableEq Name] (d : Daemon Name Labels)
    (request : Request Name Labels) :
    Served d request (d.serve request).1 (d.serve request).2 := by
  cases request with
  | create name labels =>
    simp only [serve]
    cases hname : d.ofName name with
    | none => exact .created (ofName_eq_none.1 hname)
    | some c => exact .taken (ofName_eq_some hname).1 (ofName_eq_some hname).2
  | delete id =>
    simp only [serve]
    cases hid : d.ofId id with
    | none => exact .missing (ofId_eq_none.1 hid) (.inl rfl)
    | some c =>
      obtain ⟨hc, rfl⟩ := ofId_eq_some hid
      by_cases hrunning : c.status = .running
      · simp only [hrunning, ↓reduceIte]
        exact .busy hc hrunning (.inl rfl)
      · simp only [hrunning, ↓reduceIte]
        exact .deleted hc hrunning
  | start id =>
    simp only [serve]
    cases hid : d.ofId id with
    | none => exact .missing (ofId_eq_none.1 hid) (.inr rfl)
    | some c =>
      obtain ⟨hc, rfl⟩ := ofId_eq_some hid
      by_cases hrunning : c.status = .running
      · simp only [hrunning, ↓reduceIte]
        exact .busy hc hrunning (.inr rfl)
      · simp only [hrunning, ↓reduceIte]
        exact .started hc hrunning

theorem mem_setStatus {status : Status} :
    c' ∈ d.setStatus id status ↔ ∃ c ∈ d.containers,
      c' = if c.id = id then { c with status } else c := by
  simp only [setStatus, List.mem_map, eq_comm]

theorem setStatus_ids (d : Daemon Name Labels) (id : ContainerId)
    (status : Status) :
    (d.setStatus id status).map (·.id) = d.containers.map (·.id) := by
  rw [setStatus, List.map_map]
  apply List.map_congr_left
  intro c _
  simp only [Function.comp_apply]
  split <;> rfl

theorem setStatus_names (d : Daemon Name Labels) (id : ContainerId)
    (status : Status) :
    (d.setStatus id status).map (·.name) = d.containers.map (·.name) := by
  rw [setStatus, List.map_map]
  apply List.map_congr_left
  intro c _
  simp only [Function.comp_apply]
  split <;> rfl

theorem Made.append (h : d.Made id name labels)
    (hmade : d'.made = d.made ∨ ∃ entry, d'.made = d.made ++ [entry]) :
    d'.Made id name labels := by
  rcases hmade with hsame | ⟨entry, hmore⟩
  · rwa [Made, hsame]
  · rw [Made, hmore, List.getElem?_append_left h.lt]
    exact h

theorem Served.made (h : Served d request d' reply) :
    d'.made = d.made ∨ ∃ entry, d'.made = d.made ++ [entry] := by
  cases h with
  | created _ => exact .inr ⟨_, rfl⟩
  | taken _ _ | deleted _ _ | started _ _ | busy _ _ _ | missing _ _ =>
    exact .inl rfl

/-- What is new was made by this request. -/
theorem Served.made_cases (h : Served d request d' reply)
    (hmade : d'.Made id name labels) :
    d.Made id name labels ∨
      id = d.made.length ∧ request = .create name labels ∧
        reply = .created id := by
  cases h with
  | @created name' labels' _ =>
    rcases lt_trichotomy id d.made.length with hlt | rfl | hgt
    · rw [Made, List.getElem?_append_left hlt] at hmade
      exact .inl hmade
    · rw [Made, List.getElem?_append_right (le_refl _)] at hmade
      simp only [Nat.sub_self, List.getElem?_cons_zero, Option.some.injEq,
        Prod.mk.injEq] at hmade
      obtain ⟨rfl, rfl⟩ := hmade
      exact .inr ⟨rfl, rfl, rfl⟩
    · have hlt : id < (d.made ++ [(name', labels')]).length := hmade.lt
      rw [List.length_append, List.length_singleton] at hlt
      exact absurd hlt (Nat.not_lt.2 hgt)
  | taken _ _ | deleted _ _ | started _ _ | busy _ _ _ | missing _ _ =>
    exact .inl hmade

theorem Served.started_cases (h : Served d request d' reply)
    (hid : id ∈ d'.started) :
    id ∈ d.started ∨
      request = .start id ∧ ∃ c ∈ d.containers, c.id = id := by
  cases h with
  | @started c hc _ =>
    rcases List.mem_append.1 hid with hold | hnew
    · exact .inl hold
    · rw [List.mem_singleton.1 hnew]
      exact .inr ⟨rfl, c, hc, rfl⟩
  | created _ | taken _ _ | deleted _ _ | busy _ _ _ | missing _ _ =>
    exact .inl hid

theorem Served.started_grows (h : Served d request d' reply)
    (hid : id ∈ d.started) : id ∈ d'.started := by
  cases h with
  | started _ _ => exact List.mem_append_left _ hid
  | created _ | taken _ _ | deleted _ _ | busy _ _ _ | missing _ _ => exact hid

theorem Served.made_length (h : Served d request d' reply) :
    d.made.length ≤ d'.made.length := by
  rcases h.made with hsame | ⟨entry, hmore⟩
  · rw [hsame]
  · simp [hmore]

/-- A container of an old identifier is one that was there before, with the
status that it had, unless this request started it. -/
theorem Served.old (h : Served d request d' reply) (hc' : c' ∈ d'.containers)
    (hold : c'.id < d.made.length) :
    ∃ c ∈ d.containers, c.id = c'.id ∧ c.name = c'.name ∧
      c.labels = c'.labels ∧
      (c'.status = c.status ∨ c'.status = .running ∧ request = .start c.id) := by
  cases h with
  | taken _ _ | busy _ _ _ | missing _ _ =>
    exact ⟨c', hc', rfl, rfl, rfl, .inl rfl⟩
  | created _ =>
    rcases List.mem_append.1 hc' with hbefore | hnew
    · exact ⟨c', hbefore, rfl, rfl, rfl, .inl rfl⟩
    · rw [List.mem_singleton.1 hnew] at hold
      exact absurd hold (lt_irrefl _)
  | deleted _ _ =>
    exact ⟨c', List.mem_of_mem_filter hc', rfl, rfl, rfl, .inl rfl⟩
  | started _ _ =>
    obtain ⟨c, hc, rfl⟩ := mem_setStatus.1 hc'
    refine ⟨c, hc, ?_⟩
    split
    · rename_i hsame
      exact ⟨rfl, rfl, rfl, .inr ⟨rfl, by rw [hsame]⟩⟩
    · exact ⟨rfl, rfl, rfl, .inl rfl⟩

/-- What a request leaves: every container it does not delete. -/
theorem Served.kept (h : Served d request d' reply) (hc : c ∈ d.containers)
    (hother : request ≠ .delete c.id) :
    ∃ c' ∈ d'.containers, c'.id = c.id ∧ c'.name = c.name ∧
      c'.labels = c.labels := by
  cases h with
  | taken _ _ | busy _ _ _ | missing _ _ => exact ⟨c, hc, rfl, rfl, rfl⟩
  | created _ => exact ⟨c, List.mem_append_left _ hc, rfl, rfl, rfl⟩
  | @deleted gone _ _ =>
    refine ⟨c, List.mem_filter.2 ⟨hc, ?_⟩, rfl, rfl, rfl⟩
    simp only [decide_eq_true_eq]
    intro hsame
    exact hother (by rw [hsame])
  | @started begun _ _ =>
    refine ⟨_, mem_setStatus.2 ⟨c, hc, rfl⟩, ?_⟩
    split <;> exact ⟨rfl, rfl, rfl⟩

/-- A creation that was answered made a container that never ran. -/
theorem Served.fresh (h : Served d (.create name labels) d' (.created id)) :
    d'.Made id name labels ∧ id = d.made.length ∧ d'.started = d.started := by
  cases h with
  | created _ => exact ⟨by simp [Made], rfl, rfl⟩

theorem Gone.served (h : d.Gone id) (hserved : Served d request d' reply) :
    d'.Gone id := by
  refine ⟨h.1.trans_le hserved.made_length, ?_⟩
  rintro ⟨c', hc', rfl⟩
  obtain ⟨c, hc, hid, -⟩ := hserved.old hc' h.1
  exact h.2 ⟨c, hc, hid⟩

theorem Ended.served (h : d.Ended id) (hserved : Served d request d' reply)
    (hstart : request ≠ .start id) : d'.Ended id := by
  refine ⟨h.1.trans_le hserved.made_length, ?_⟩
  rintro c' hc' rfl
  obtain ⟨c, hc, hid, -, -, hsame | ⟨-, hrequest⟩⟩ := hserved.old hc' h.1
  · rw [hsame]
    exact h.2 c hc hid
  · rw [hid] at hrequest
    exact absurd hrequest hstart

theorem Consistent.served (h : d.Consistent)
    (hserved : Served d request d' reply) : d'.Consistent := by
  cases hserved with
  | taken _ _ | busy _ _ _ | missing _ _ => exact h
  | @created name labels hfree =>
    have hold : ∀ c ∈ d.containers, c.id ≠ d.made.length :=
      fun c hc => (h.lt hc).ne
    constructor
    · intro c hc
      rcases List.mem_append.1 hc with hbefore | hnew
      · exact (h.made c hbefore).append (.inr ⟨_, rfl⟩)
      · rw [List.mem_singleton.1 hnew]
        simp [Made]
    · simp only [List.map_append, List.map_cons, List.map_nil]
      refine List.nodup_append'.2 ⟨h.ids, List.nodup_singleton _, ?_⟩
      simpa [List.disjoint_singleton] using hold
    · simp only [List.map_append, List.map_cons, List.map_nil]
      refine List.nodup_append'.2 ⟨h.names, List.nodup_singleton _, ?_⟩
      simpa [List.disjoint_singleton] using hfree
    · intro c hc
      rcases List.mem_append.1 hc with hbefore | hnew
      · exact h.started c hbefore
      · rw [List.mem_singleton.1 hnew]
        simp only [true_iff]
        exact fun hstarted => absurd (h.startedMade _ hstarted) (lt_irrefl _)
    · intro id hid
      exact (h.startedMade id hid).trans_le (by simp)
  | @deleted c hc hstopped =>
    exact ⟨fun c' hc' => h.made c' (List.mem_of_mem_filter hc'),
      h.ids.sublist (List.filter_sublist.map _),
      h.names.sublist (List.filter_sublist.map _),
      fun c' hc' => h.started c' (List.mem_of_mem_filter hc'), h.startedMade⟩
  | @started c hc hstopped =>
    constructor
    · intro c' hc'
      obtain ⟨before, hbefore, rfl⟩ := mem_setStatus.1 hc'
      have hmade := h.made before hbefore
      split <;> exact hmade
    · rw [setStatus_ids]
      exact h.ids
    · rw [setStatus_names]
      exact h.names
    · intro c' hc'
      obtain ⟨before, hbefore, rfl⟩ := mem_setStatus.1 hc'
      have hstatus := h.started before hbefore
      split
      · rename_i hsame
        simp [hsame]
      · rename_i hother
        simp [hstatus, hother]
    · intro id hid
      rcases List.mem_append.1 hid with hbefore | hnew
      · exact h.startedMade id hbefore
      · rw [List.mem_singleton.1 hnew]
        exact h.lt hc

theorem exit_cases (d : Daemon Name Labels) (id : ContainerId) :
    d.exit id = d ∨ ∃ c ∈ d.containers, c.id = id ∧ c.status = .running ∧
      d.exit id = { d with containers := d.setStatus id .exited } := by
  unfold exit
  cases hid : d.ofId id with
  | none => exact .inl rfl
  | some c =>
    obtain ⟨hc, hsame⟩ := ofId_eq_some hid
    by_cases hrunning : c.status = .running
    · exact .inr ⟨c, hc, hsame, hrunning, by simp [hrunning]⟩
    · exact .inl (by simp [hrunning])

theorem exit_made (d : Daemon Name Labels) (id : ContainerId) :
    (d.exit id).made = d.made := by
  rcases exit_cases d id with hsame | ⟨_, _, _, _, hexit⟩
  · rw [hsame]
  · rw [hexit]

theorem exit_started (d : Daemon Name Labels) (id : ContainerId) :
    (d.exit id).started = d.started := by
  rcases exit_cases d id with hsame | ⟨_, _, _, _, hexit⟩
  · rw [hsame]
  · rw [hexit]

theorem exit_old (d : Daemon Name Labels) (id : ContainerId)
    (hc' : c' ∈ (d.exit id).containers) :
    ∃ c ∈ d.containers, c.id = c'.id ∧ c.name = c'.name ∧
      c.labels = c'.labels ∧
      (c'.status = c.status ∨ c'.status = .exited ∧ c.id = id) := by
  rcases exit_cases d id with hsame | ⟨_, _, _, _, hexit⟩
  · rw [hsame] at hc'
    exact ⟨c', hc', rfl, rfl, rfl, .inl rfl⟩
  · rw [hexit] at hc'
    obtain ⟨c, hc, rfl⟩ := mem_setStatus.1 hc'
    refine ⟨c, hc, ?_⟩
    split
    · rename_i hid
      exact ⟨rfl, rfl, rfl, .inr ⟨rfl, hid⟩⟩
    · exact ⟨rfl, rfl, rfl, .inl rfl⟩

theorem exit_kept (d : Daemon Name Labels) (id : ContainerId)
    (hc : c ∈ d.containers) :
    ∃ c' ∈ (d.exit id).containers, c'.id = c.id ∧ c'.name = c.name ∧
      c'.labels = c.labels := by
  rcases exit_cases d id with hsame | ⟨_, _, _, _, hexit⟩
  · rw [hsame]
    exact ⟨c, hc, rfl, rfl, rfl⟩
  · rw [hexit]
    refine ⟨_, mem_setStatus.2 ⟨c, hc, rfl⟩, ?_⟩
    split <;> exact ⟨rfl, rfl, rfl⟩

theorem Consistent.exit (h : d.Consistent) (id : ContainerId) :
    (d.exit id).Consistent := by
  rcases exit_cases d id with hsame | ⟨c, hc, rfl, hrunning, hexit⟩
  · rw [hsame]
    exact h
  · rw [hexit]
    constructor
    · intro c' hc'
      obtain ⟨before, hbefore, rfl⟩ := mem_setStatus.1 hc'
      have hmade := h.made before hbefore
      split <;> exact hmade
    · rw [setStatus_ids]
      exact h.ids
    · rw [setStatus_names]
      exact h.names
    · intro c' hc'
      obtain ⟨before, hbefore, rfl⟩ := mem_setStatus.1 hc'
      split
      · rename_i hsame
        cases h.eq_of_id hbefore hc hsame
        have hbegun := (h.started _ hc).not.1 (by simp [hrunning])
        simpa using hbegun
      · exact h.started before hbefore
    · exact h.startedMade

theorem Gone.exit (h : d.Gone id) (other : ContainerId) :
    (d.exit other).Gone id := by
  refine ⟨by rw [exit_made]; exact h.1, ?_⟩
  rintro ⟨c', hc', rfl⟩
  obtain ⟨c, hc, hid, -⟩ := exit_old d other hc'
  exact h.2 ⟨c, hc, hid⟩

theorem Ended.exit (h : d.Ended id) (other : ContainerId) :
    (d.exit other).Ended id := by
  refine ⟨by rw [exit_made]; exact h.1, ?_⟩
  rintro c' hc' rfl
  obtain ⟨c, hc, hid, -, -, hsame | ⟨hexited, -⟩⟩ := exit_old d other hc'
  · rw [hsame]
    exact h.2 c hc hid
  · exact hexited

end Daemon

end ContainerDaemon
