/-
The limits of the cache volumes.  A deletion takes from every total what the
volume adds to the one that was asked for, so the totals at the end are those of
the volumes that are left, and a volume is only kept over a limit when its
deletion would not have helped.
-/
import Allrice.ProjectCacheVolumes

namespace Allrice.ProjectCache

open Rounding

namespace Request

variable (request : Request)

/-- What the volumes and the one that was asked for cost, added up exactly. -/
def charged (volumes : List Volume) : Int :=
  request.owed volumes + (volumes.map request.charge).sum

def standardCharged (volumes : List Volume) : Int :=
  request.standardOwed volumes + (volumes.map request.standardCharge).sum

/-- The pool, the standard volumes and the number of volumes. -/
structure Fits (volumes : List Volume) : Prop where
  pool : request.charged volumes ≤ poolBytes
  standard : request.standardCharged volumes ≤ volumeBytes
  count : request.counted volumes ≤ volumeFiles

/-- No volume is larger than its own limit. -/
def WithinLimits (volumes : List Volume) : Prop :=
  ∀ v ∈ volumes, v.size ≤ request.volumeLimit v

end Request

/-- The volumes of this cache. -/
def Measured.entries (measured : Measured) : List Volume :=
  measured.volumes.filter Volume.isCache

/-- The cache's volumes that a call has left. -/
def remaining (measured : Measured) (reserved : Reserved) : List Volume :=
  measured.entries.filter (· ∉ reserved.deleted)

/-- The cache's volumes that a container uses. -/
def referenced (measured : Measured) : List Volume :=
  measured.entries.filter (0 < ·.refCount)

/-- The numbers up to which every whole number is a double. -/
def exactBytes : Int := 2 ^ 53

/-- What a call guarantees; its totals are exact where they are no larger than
the whole numbers that doubles have. -/
structure Guarded (request : Request) (measured : Measured)
    (reserved : Reserved) : Prop where
  deleted : ∀ v ∈ reserved.deleted,
    v ∈ measured.volumes ∧ v.isCache = true ∧ ¬0 < v.refCount
  succeeded : request.charged measured.entries ≤ exactBytes →
    reserved.error = none →
      request.Fits (remaining measured reserved) ∧
        request.WithinLimits
          ((remaining measured reserved).filter (¬0 < ·.refCount))
  limited : request.charged measured.entries ≤ exactBytes →
    reserved.error = some .limit → ¬request.Fits (referenced measured)

theorem double_exact {n : Int} (hlow : -exactBytes ≤ n) (hhigh : n ≤ exactBytes) :
    double n = n := by
  have hsize : n.natAbs ≤ 2 ^ 53 := by
    unfold exactBytes at hlow hhigh
    omega
  unfold double
  rw [roundUnits_exact hsize]
  split
  · omega
  · omega

namespace Request

variable {request : Request}

theorem total_exact {cost : Volume → Int} {entries : List Volume} {start : Int}
    (hstart : 0 ≤ start) (hcost : ∀ v ∈ entries, 0 ≤ cost v)
    (hsum : start + (entries.map cost).sum ≤ exactBytes) :
    total cost start entries = start + (entries.map cost).sum := by
  induction entries generalizing start with
  | nil =>
    rw [List.map_nil, List.sum_nil, Int.add_zero]
    rfl
  | cons v rest ih =>
    rw [List.map_cons, List.sum_cons, ← Int.add_assoc] at hsum ⊢
    have hfirst := hcost v List.mem_cons_self
    have hrest : ∀ other ∈ rest, 0 ≤ cost other := fun other hother =>
      hcost other (List.mem_cons_of_mem _ hother)
    have hnonneg : 0 ≤ (rest.map cost).sum := by
      apply List.sum_nonneg
      intro amount hamount
      obtain ⟨other, hother, rfl⟩ := List.mem_map.1 hamount
      exact hrest other hother
    have hexact : double (start + cost v) = start + cost v := by
      apply double_exact
      · unfold exactBytes
        omega
      · omega
    change total cost (double (start + cost v)) rest = _
    rw [hexact]
    exact ih (by omega) hrest hsum

def extra (request : Request) (v : Volume) : Int :=
  request.charge v - if v.name = request.name then request.bytes else 0

def standardExtra (request : Request) (v : Volume) : Int :=
  if request.standard v then request.extra v else 0

def countExtra (request : Request) (v : Volume) : Int :=
  if v.name = request.name then 0 else 1

/-- What is kept for a standard volume that was asked for. -/
def standardBase (request : Request) : Int :=
  if request.profile = .standard then request.bytes else 0

theorem bytes_pos : 0 < request.bytes := by
  unfold bytes
  cases request.profile with
  | standard | webDevelopment => decide

theorem standardBase_bounds :
    0 ≤ request.standardBase ∧ request.standardBase ≤ request.bytes := by
  have hpos := @bytes_pos request
  unfold standardBase
  split
  · omega
  · omega

theorem standard_self {v : Volume} (h : v.name = request.name) :
    request.standard v = true ↔ request.profile = .standard := by
  unfold standard volumeLimit
  rw [if_pos h, decide_eq_true_eq]
  unfold bytes
  cases request.profile with
  | standard => exact iff_of_true rfl rfl
  | webDevelopment => exact iff_of_false (by decide) (by decide)

/-- At most one of the volumes is the one that was asked for. -/
theorem sum_at_name {volumes : List Volume}
    (hunique : (volumes.map Volume.name).Nodup) (amount : Int) :
    (volumes.map fun v => if v.name = request.name then amount else 0).sum =
      if request.has volumes then amount else 0 := by
  induction volumes with
  | nil => rfl
  | cons v rest ih =>
    rw [List.map_cons, List.nodup_cons] at hunique
    rw [List.map_cons, List.sum_cons, ih hunique.2]
    unfold has
    rw [List.any_cons]
    by_cases hname : v.name = request.name
    · have hnone : (rest.any fun v => v.name = request.name) = false := by
        rw [List.any_eq_false]
        intro other hother hsame
        refine hunique.1 ?_
        rw [hname, ← of_decide_eq_true hsame]
        exact List.mem_map_of_mem hother
      simp [hname, hnone]
    · simp [hname]

theorem sum_map_sub (volumes : List Volume) (f g : Volume → Int) :
    (volumes.map fun v => f v - g v).sum =
      (volumes.map f).sum - (volumes.map g).sum := by
  induction volumes with
  | nil => rfl
  | cons v rest ih =>
    simp only [List.map_cons, List.sum_cons, ih]
    omega

theorem charged_eq {volumes : List Volume}
    (hunique : (volumes.map Volume.name).Nodup) :
    request.charged volumes =
      request.bytes + (volumes.map request.extra).sum := by
  have hsum := @sum_at_name request _ hunique request.bytes
  have hextra := sum_map_sub volumes request.charge
    fun v => if v.name = request.name then request.bytes else 0
  unfold charged owed
  rw [show (volumes.map request.extra).sum = _ from hextra, hsum]
  split
  · omega
  · omega

theorem standardExtra_eq (v : Volume) :
    request.standardExtra v = request.standardCharge v -
      if v.name = request.name then request.standardBase else 0 := by
  unfold standardExtra extra standardCharge standardBase
  by_cases hname : v.name = request.name
  · by_cases hstandard : request.standard v = true
    · simp [hname, hstandard, (standard_self hname).1 hstandard]
    · have hprofile := mt (standard_self hname).2 hstandard
      simp [hname, hstandard, hprofile]
  · simp [hname]

theorem standardCharged_eq {volumes : List Volume}
    (hunique : (volumes.map Volume.name).Nodup) :
    request.standardCharged volumes =
      request.standardBase + (volumes.map request.standardExtra).sum := by
  have hsum := @sum_at_name request _ hunique request.standardBase
  have hextra := sum_map_sub volumes request.standardCharge
    fun v => if v.name = request.name then request.standardBase else 0
  rw [funext standardExtra_eq, hextra, hsum]
  unfold standardCharged standardOwed standardBase
  by_cases hhas : request.has volumes = true
  · simp [hhas]
  · simp only [Bool.not_eq_true] at hhas
    simp only [hhas, Bool.false_eq_true, if_false, true_and]
    omega

theorem countExtra_eq (v : Volume) :
    request.countExtra v = 1 - if v.name = request.name then 1 else 0 := by
  unfold countExtra
  split
  · rfl
  · rfl

theorem counted_eq {volumes : List Volume}
    (hunique : (volumes.map Volume.name).Nodup) :
    request.counted volumes = 1 + (volumes.map request.countExtra).sum := by
  have hsum := @sum_at_name request _ hunique 1
  have hextra := sum_map_sub volumes (fun _ => 1)
    fun v => if v.name = request.name then 1 else 0
  rw [funext countExtra_eq, hextra, hsum, List.map_const', List.sum_replicate]
  unfold counted
  simp only [nsmul_eq_mul, mul_one]
  split
  · omega
  · omega

theorem charge_nonneg {v : Volume} (hsize : 0 ≤ v.size) :
    0 ≤ request.charge v := by
  unfold charge
  split
  · exact hsize.trans (le_max_right _ _)
  · exact hsize

theorem extra_nonneg {v : Volume} (hsize : 0 ≤ v.size) :
    0 ≤ request.extra v := by
  unfold extra
  split
  · rename_i hname
    unfold charge volumeLimit
    rw [if_pos (.inl hname), if_pos hname]
    have hmax := le_max_left request.bytes v.size
    omega
  · have hcharge := @charge_nonneg request _ hsize
    omega

theorem standardExtra_bounds {v : Volume} (hsize : 0 ≤ v.size) :
    0 ≤ request.standardExtra v ∧
      request.standardExtra v ≤ request.extra v := by
  have hextra := @extra_nonneg request _ hsize
  unfold standardExtra
  split
  · exact ⟨hextra, le_refl _⟩
  · exact ⟨le_refl _, hextra⟩

theorem countExtra_nonneg (v : Volume) : 0 ≤ request.countExtra v := by
  unfold countExtra
  split
  · decide
  · decide

/-- Within its limit, the volume that was asked for adds nothing. -/
theorem extra_self {v : Volume} (hname : v.name = request.name)
    (hsize : v.size ≤ request.volumeLimit v) : request.extra v = 0 := by
  unfold extra charge
  rw [if_pos (.inl hname), if_pos hname, max_eq_left hsize]
  unfold volumeLimit
  rw [if_pos hname]
  omega

theorem delete_deleted (pool : Pool) (v : Volume) :
    (request.delete pool v).deleted = pool.deleted ++ [v] := by
  unfold delete
  split
  · rfl
  · rfl

theorem delete_count (pool : Pool) (v : Volume) :
    (request.delete pool v).count = pool.count - request.countExtra v := by
  unfold delete countExtra
  by_cases hname : v.name = request.name
  · rw [if_neg (not_not.2 hname), if_pos hname, Int.sub_zero]
  · rw [if_pos hname, if_neg hname]

/-- A total that a volume is part of, without it. -/
theorem double_sub {whole part : Int} (hpart : 0 ≤ part) (hle : part ≤ whole)
    (hwhole : whole ≤ exactBytes) : double (whole - part) = whole - part := by
  apply double_exact
  · unfold exactBytes
    omega
  · omega

theorem double_add {whole part : Int} (hpart : 0 ≤ part) (hle : part ≤ whole)
    (hwhole : whole ≤ exactBytes) :
    double (whole + double (-part)) = whole - part := by
  rw [double_exact (n := -part) (by omega) (by unfold exactBytes; omega),
    ← Int.sub_eq_add_neg]
  exact double_sub hpart hle hwhole

theorem extra_other {v : Volume} (hname : ¬v.name = request.name) :
    request.extra v = request.charge v := by
  rw [extra, if_neg hname, Int.sub_zero]

theorem neg_extra {v : Volume} (hname : v.name = request.name) :
    request.bytes - request.charge v = -request.extra v := by
  rw [extra, if_pos hname, Int.neg_sub]

theorem delete_bytes {pool : Pool} {v : Volume} (hsize : 0 ≤ v.size)
    (hle : request.extra v ≤ pool.bytes) (hexact : pool.bytes ≤ exactBytes) :
    (request.delete pool v).bytes = pool.bytes - request.extra v := by
  have hextra := @extra_nonneg request _ hsize
  unfold delete
  by_cases hname : v.name = request.name
  · rw [if_neg (not_not.2 hname), neg_extra hname]
    exact double_add hextra hle hexact
  · rw [if_pos hname, ← extra_other hname]
    exact double_sub hextra hle hexact

theorem delete_standardBytes {pool : Pool} {v : Volume} (hsize : 0 ≤ v.size)
    (hle : request.standardExtra v ≤ pool.standardBytes)
    (hexact : pool.standardBytes ≤ exactBytes) :
    (request.delete pool v).standardBytes =
      pool.standardBytes - request.standardExtra v := by
  have hextra := @extra_nonneg request _ hsize
  by_cases hstandard : request.standard v = true
  · have hsame : request.standardExtra v = request.extra v := if_pos hstandard
    rw [hsame] at hle ⊢
    unfold delete
    by_cases hname : v.name = request.name
    · rw [if_neg (not_not.2 hname), neg_extra hname, if_pos hstandard]
      exact double_add hextra hle hexact
    · rw [if_pos hname, ← extra_other hname, if_pos hstandard]
      exact double_sub hextra hle hexact
  · have hnone : request.standardExtra v = 0 := if_neg hstandard
    rw [hnone, Int.sub_zero]
    unfold delete
    by_cases hname : v.name = request.name
    · rw [if_neg (not_not.2 hname), if_neg hstandard]
    · rw [if_pos hname, if_neg hstandard]

/-- A volume that was kept, seen from the totals of now. -/
def KeptFor (request : Request) (pool : Pool) (v : Volume) : Prop :=
  0 < v.refCount ∨
    (v.size ≤ request.volumeLimit v ∧
      (v.name = request.name ∨
        (pool.bytes ≤ poolBytes ∧
          (pool.standardBytes ≤ volumeBytes ∨ request.standard v = false) ∧
          pool.count ≤ volumeFiles)))

theorem passes_kept {pool : Pool} {v : Volume}
    (h : request.passes pool v = true) : request.KeptFor pool v := by
  unfold passes at h
  simp only [Bool.or_eq_true, Bool.and_eq_true, decide_eq_true_eq,
    Bool.not_eq_eq_eq_not, Bool.not_true] at h
  rcases h with (⟨hname, hsize⟩ | ⟨⟨⟨⟨-, hbytes⟩, hstandard⟩, hcount⟩, hsize⟩) |
    hused
  · exact .inr ⟨hsize, .inl hname⟩
  · exact .inr ⟨hsize, .inr ⟨hbytes, hstandard, hcount⟩⟩
  · exact .inl hused

theorem passes_false {pool : Pool} {v : Volume}
    (h : ¬request.passes pool v = true) : ¬0 < v.refCount := by
  intro hused
  apply h
  unfold passes
  rw [decide_eq_true hused, Bool.or_true]

/-- Smaller totals are no reason to delete. -/
theorem KeptFor.smaller {pool next : Pool} {v : Volume}
    (h : request.KeptFor pool v) (hbytes : next.bytes ≤ pool.bytes)
    (hstandard : next.standardBytes ≤ pool.standardBytes)
    (hcount : next.count ≤ pool.count) : request.KeptFor next v := by
  rcases h with hused | ⟨hwithin, hname | ⟨hpool, hvolumes, hfiles⟩⟩
  · exact .inl hused
  · exact .inr ⟨hwithin, .inl hname⟩
  · refine .inr ⟨hwithin, .inr ⟨hbytes.trans hpool, ?_, hcount.trans hfiles⟩⟩
    exact hvolumes.imp_left hstandard.trans

/-- So far: the volumes are those that were kept and those that were deleted,
and the totals are those of the kept ones and of the rest. -/
structure Progress (request : Request) (seen kept rest : List Volume)
    (pool : Pool) : Prop where
  split : (kept ++ pool.deleted).Perm seen
  reasons : ∀ v ∈ kept, request.KeptFor pool v
  unused : ∀ v ∈ pool.deleted, ¬0 < v.refCount
  sizes : ∀ v ∈ kept ++ rest, 0 ≤ v.size
  bytes : pool.bytes =
    request.bytes + ((kept ++ rest).map request.extra).sum
  standardBytes : pool.standardBytes =
    request.standardBase + ((kept ++ rest).map request.standardExtra).sum
  count : pool.count = 1 + ((kept ++ rest).map request.countExtra).sum
  exact : pool.bytes ≤ exactBytes

theorem sum_extra_bounds {volumes : List Volume}
    (hsizes : ∀ v ∈ volumes, 0 ≤ v.size) :
    0 ≤ (volumes.map request.standardExtra).sum ∧
      (volumes.map request.standardExtra).sum ≤
        (volumes.map request.extra).sum := by
  induction volumes with
  | nil => exact ⟨le_refl _, le_refl _⟩
  | cons v rest ih =>
    simp only [List.map_cons, List.sum_cons]
    have hfirst := @standardExtra_bounds request _
      (hsizes v List.mem_cons_self)
    have hrest := ih fun other hother =>
      hsizes other (List.mem_cons_of_mem _ hother)
    omega

theorem Progress.keep {seen kept rest : List Volume} {pool : Pool} {v : Volume}
    (h : Progress request seen kept (v :: rest) pool)
    (hpasses : request.passes pool v = true) :
    Progress request (seen ++ [v]) (kept ++ [v]) rest pool := by
  have hlist : kept ++ [v] ++ rest = kept ++ v :: rest := by
    rw [List.append_assoc, List.singleton_append]
  constructor
  case split =>
    rw [List.append_assoc]
    apply (List.perm_append_comm.append_left kept).trans
    rw [← List.append_assoc]
    exact h.split.append_right [v]
  case reasons =>
    intro other hother
    rcases List.mem_append.1 hother with hother | hother
    · exact h.reasons other hother
    · rw [List.mem_singleton.1 hother]
      exact passes_kept hpasses
  case unused => exact h.unused
  case sizes =>
    rw [hlist]
    exact h.sizes
  case bytes =>
    rw [hlist]
    exact h.bytes
  case standardBytes =>
    rw [hlist]
    exact h.standardBytes
  case count =>
    rw [hlist]
    exact h.count
  case exact => exact h.exact

theorem sum_without (amount : Volume → Int) (kept rest : List Volume)
    (v : Volume) :
    ((kept ++ v :: rest).map amount).sum =
      ((kept ++ rest).map amount).sum + amount v := by
  simp only [List.map_append, List.map_cons, List.sum_append, List.sum_cons]
  omega

theorem Progress.delete {seen kept rest : List Volume} {pool : Pool}
    {v : Volume} (h : Progress request seen kept (v :: rest) pool)
    (hpasses : ¬request.passes pool v = true) :
    Progress request (seen ++ [v]) kept rest (request.delete pool v) := by
  have hsizes : ∀ other ∈ kept ++ rest, 0 ≤ other.size := by
    intro other hother
    apply h.sizes
    rcases List.mem_append.1 hother with hother | hother
    · exact List.mem_append_left _ hother
    · exact List.mem_append_right _ (List.mem_cons_of_mem _ hother)
  have hsize : 0 ≤ v.size := h.sizes v (by simp)
  have hpos := @bytes_pos request
  have hbase := @standardBase_bounds request
  have hsums := @sum_extra_bounds request _ hsizes
  have hextra := @standardExtra_bounds request _ hsize
  have hnumber := @countExtra_nonneg request v
  have hbytes := h.bytes
  have hstandardBytes := h.standardBytes
  have hcount := h.count
  have hexact := h.exact
  rw [sum_without] at hbytes hstandardBytes hcount
  have hbytes' := @delete_bytes request pool _ hsize
    (by omega) hexact
  have hstandardBytes' := @delete_standardBytes request pool _
    hsize (by omega) (by omega)
  have hcount' := @delete_count request pool v
  constructor
  case split =>
    rw [delete_deleted, ← List.append_assoc]
    exact h.split.append_right [v]
  case reasons =>
    intro other hother
    apply (h.reasons other hother).smaller
    · omega
    · omega
    · omega
  case unused =>
    intro other hother
    rw [delete_deleted] at hother
    rcases List.mem_append.1 hother with hother | hother
    · exact h.unused other hother
    · rw [List.mem_singleton.1 hother]
      exact passes_false hpasses
  case sizes => exact hsizes
  case bytes => omega
  case standardBytes => omega
  case count => omega
  case exact => omega

/-- A loop that goes through all volumes keeps its promises. -/
theorem Progress.evict {daemon : Daemon} {seen kept rest : List Volume}
    {pool last : Pool} (h : Progress request seen kept rest pool)
    (hlast : request.evict daemon rest pool = (last, none)) :
    ∃ kept, Progress request (seen ++ rest) kept [] last := by
  induction rest generalizing seen kept pool with
  | nil =>
    obtain rfl : pool = last := congrArg Prod.fst hlast
    rw [List.append_nil]
    exact ⟨kept, h⟩
  | cons v rest ih =>
    rw [← List.singleton_append, ← List.append_assoc]
    unfold Request.evict at hlast
    split at hlast
    · rename_i hpasses
      exact ih (h.keep hpasses) hlast
    · rename_i hpasses
      split at hlast
      · cases hlast
      · split at hlast
        · cases hlast
        · split at hlast
          · cases hlast
          · exact ih (h.delete hpasses) hlast

/-- Whatever happens, only volumes without a container are deleted. -/
theorem evict_deleted {daemon : Daemon} (rest : List Volume) (pool : Pool) :
    ∀ v ∈ (request.evict daemon rest pool).1.deleted,
      v ∈ pool.deleted ∨ (v ∈ rest ∧ ¬0 < v.refCount) := by
  induction rest generalizing pool with
  | nil => exact fun v hv => .inl hv
  | cons first rest ih =>
    intro v hv
    have hlater : ∀ next : Pool,
        (v ∈ next.deleted → v ∈ pool.deleted ∨
          (v = first ∧ ¬0 < first.refCount)) →
        v ∈ (request.evict daemon rest next).1.deleted →
          v ∈ pool.deleted ∨ (v ∈ first :: rest ∧ ¬0 < v.refCount) := by
      intro next hnext hmem
      rcases ih next v hmem with hearlier | ⟨hrest, hunused⟩
      · rcases hnext hearlier with hearlier | ⟨rfl, hunused⟩
        · exact .inl hearlier
        · exact .inr ⟨List.mem_cons_self, hunused⟩
      · exact .inr ⟨List.mem_cons_of_mem _ hrest, hunused⟩
    unfold Request.evict at hv
    split at hv
    · exact hlater pool .inl hv
    · rename_i hpasses
      split at hv
      · exact .inl hv
      · split at hv
        · exact .inl hv
        · split at hv
          · exact .inl hv
          · apply hlater _ _ hv
            intro hmem
            rw [delete_deleted] at hmem
            rcases List.mem_append.1 hmem with hmem | hmem
            · exact .inl hmem
            · exact .inr ⟨List.mem_singleton.1 hmem, passes_false hpasses⟩

/-- The loop itself never finds that there is no room. -/
theorem evict_not_limit {daemon : Daemon} (rest : List Volume) (pool : Pool) :
    (request.evict daemon rest pool).2 ≠ some .limit := by
  induction rest generalizing pool with
  | nil => nofun
  | cons v rest ih =>
    unfold Request.evict
    split
    · exact ih pool
    · split
      · nofun
      · split
        · nofun
        · split
          · nofun
          · exact ih _

theorem size_of_trusted {v : Volume} (h : request.distrusts v = false) :
    0 ≤ v.size := by
  unfold distrusts at h
  unfold Volume.size
  cases husage : v.usage with
  | none => exact le_refl _
  | some usage =>
    simp only [husage, Bool.or_eq_false_iff, decide_eq_false_iff_not,
      Int.not_lt] at h
    exact h.1.1.2.1.2

theorem Progress.start {entries ordered : List Volume}
    (hperm : ordered.Perm entries) (hunique : (entries.map Volume.name).Nodup)
    (hsizes : ∀ v ∈ entries, 0 ≤ v.size)
    (hexact : request.charged entries ≤ exactBytes) :
    Progress request [] [] ordered (request.initial entries) := by
  have hcharged := @charged_eq request _ hunique
  have hstandard := @standardCharged_eq request _ hunique
  have hpos := @bytes_pos request
  have hbase := @standardBase_bounds request
  have hsums := @sum_extra_bounds request _ hsizes
  have howed : 0 ≤ request.owed entries := by
    unfold owed
    split
    · exact le_refl _
    · exact hpos.le
  have hstandardOwed : 0 ≤ request.standardOwed entries := by
    unfold standardOwed
    split
    · exact hpos.le
    · exact le_refl _
  have hcharges : ∀ v ∈ entries, 0 ≤ request.charge v := fun v hv =>
    charge_nonneg (hsizes v hv)
  have hstandardCharges : ∀ v ∈ entries, 0 ≤ request.standardCharge v := by
    intro v hv
    unfold standardCharge
    split
    · exact hcharges v hv
    · exact le_refl _
  have hbytes : (request.initial entries).bytes = request.charged entries :=
    total_exact howed hcharges hexact
  have hstandardBytes : (request.initial entries).standardBytes =
      request.standardCharged entries := by
    apply total_exact hstandardOwed hstandardCharges
    change request.standardCharged entries ≤ exactBytes
    omega
  constructor
  case split => exact .refl _
  case reasons =>
    intro v hv
    cases hv
  case unused =>
    intro v hv
    cases hv
  case sizes =>
    intro v hv
    exact hsizes v (hperm.mem_iff.1 hv)
  case bytes =>
    rw [hbytes, hcharged, List.nil_append,
      (hperm.map request.extra).sum_eq]
  case standardBytes =>
    rw [hstandardBytes, hstandard, List.nil_append,
      (hperm.map request.standardExtra).sum_eq]
  case count =>
    rw [List.nil_append, (hperm.map request.countExtra).sum_eq]
    exact counted_eq hunique
  case exact => exact hbytes.trans_le hexact

theorem fits_iff {volumes : List Volume}
    (hunique : (volumes.map Volume.name).Nodup) :
    request.Fits volumes ↔
      request.bytes + (volumes.map request.extra).sum ≤ poolBytes ∧
        request.standardBase + (volumes.map request.standardExtra).sum ≤
            volumeBytes ∧
          1 + (volumes.map request.countExtra).sum ≤ volumeFiles := by
  rw [← charged_eq hunique, ← standardCharged_eq hunique, ← counted_eq hunique]
  constructor
  · intro hfits
    exact ⟨hfits.pool, hfits.standard, hfits.count⟩
  · intro hfits
    exact ⟨hfits.1, hfits.2.1, hfits.2.2⟩

theorem remaining_perm {entries kept deleted : List Volume}
    (hperm : (kept ++ deleted).Perm entries)
    (hunique : (entries.map Volume.name).Nodup) :
    (entries.filter (· ∉ deleted)).Perm kept := by
  have hnodup : (kept ++ deleted).Nodup :=
    (hperm.map Volume.name).nodup_iff.2 hunique |>.of_map
  have happart := List.disjoint_of_nodup_append hnodup
  apply (hperm.filter _).symm.trans
  rw [List.filter_append, List.filter_eq_self.2, List.filter_eq_nil_iff.2,
    List.append_nil]
  · intro v hv hleft
    exact of_decide_eq_true hleft hv
  · intro v hv
    exact decide_eq_true fun hdeleted => happart hv hdeleted

theorem referenced_perm {entries kept deleted : List Volume}
    (hperm : (kept ++ deleted).Perm entries)
    (hunused : ∀ v ∈ deleted, ¬0 < v.refCount) :
    (entries.filter (0 < ·.refCount)).Perm
      (kept.filter (0 < ·.refCount)) := by
  apply (hperm.filter _).symm.trans
  rw [List.filter_append, (List.filter_eq_nil_iff (l := deleted)).2,
    List.append_nil]
  intro v hv hused
  exact hunused v hv (of_decide_eq_true hused)

/-- Volumes that add nothing may be left out of a sum. -/
theorem sum_used {amount : Volume → Int} {kept : List Volume}
    (h : ∀ v ∈ kept, ¬0 < v.refCount → amount v = 0) :
    ((kept.filter (0 < ·.refCount)).map amount).sum =
      (kept.map amount).sum := by
  induction kept with
  | nil => rfl
  | cons v rest ih =>
    have hrest := ih fun other hother =>
      h other (List.mem_cons_of_mem _ hother)
    rw [List.map_cons, List.sum_cons, ← hrest, List.filter_cons]
    by_cases hused : 0 < v.refCount
    · rw [if_pos (decide_eq_true hused), List.map_cons, List.sum_cons]
    · rw [if_neg fun htrue => hused (of_decide_eq_true htrue),
        h v List.mem_cons_self hused, Int.zero_add]

/-- A limit that is exceeded at the end is exceeded by the volumes in use. -/
theorem Progress.exceeded {entries kept : List Volume} {pool : Pool}
    (h : Progress request entries kept [] pool)
    (hunique : (entries.map Volume.name).Nodup)
    (hover : poolBytes < pool.bytes ∨ volumeBytes < pool.standardBytes ∨
      volumeFiles < pool.count) :
    ¬request.Fits (entries.filter (0 < ·.refCount)) := by
  have hperm := referenced_perm h.split h.unused
  have hnames := hunique.sublist
    ((List.filter_sublist (p := fun v : Volume => 0 < v.refCount)).map
      Volume.name)
  rw [fits_iff hnames, (hperm.map request.extra).sum_eq,
    (hperm.map request.standardExtra).sum_eq,
    (hperm.map request.countExtra).sum_eq]
  rintro ⟨hpool, hstandard, hcount⟩
  have hbytes := h.bytes
  have hstandardBytes := h.standardBytes
  have hcounted := h.count
  rw [List.append_nil] at hbytes hstandardBytes hcounted
  rcases hover with hover | hover | hover
  · have hsum := @sum_used request.extra kept (by
      intro v hv hunused
      rcases h.reasons v hv with hused | ⟨hwithin, hname | ⟨hfits, -, -⟩⟩
      · exact absurd hused hunused
      · exact extra_self hname hwithin
      · omega)
    omega
  · have hsum := @sum_used request.standardExtra kept (by
      intro v hv hunused
      unfold standardExtra
      rcases h.reasons v hv with hused |
        ⟨hwithin, hname | ⟨-, hfits | hother, -⟩⟩
      · exact absurd hused hunused
      · rw [extra_self hname hwithin, ite_self]
      · omega
      · rw [hother]
        rfl)
    omega
  · have hsum := @sum_used request.countExtra kept (by
      intro v hv hunused
      rcases h.reasons v hv with hused | ⟨hwithin, hname | ⟨-, -, hfits⟩⟩
      · exact absurd hused hunused
      · exact if_pos hname
      · omega)
    omega

/-- What is left after a loop that found room. -/
theorem Progress.fitting {entries kept : List Volume} {pool : Pool}
    (h : Progress request entries kept [] pool)
    (hunique : (entries.map Volume.name).Nodup)
    (hroom : ¬(poolBytes < pool.bytes ∨ volumeBytes < pool.standardBytes ∨
      volumeFiles < pool.count)) :
    request.Fits (entries.filter (· ∉ pool.deleted)) ∧
      request.WithinLimits
        ((entries.filter (· ∉ pool.deleted)).filter (¬0 < ·.refCount)) := by
  have hperm := remaining_perm h.split hunique
  have hnames := hunique.sublist
    ((List.filter_sublist (p := fun v : Volume => v ∉ pool.deleted)).map
      Volume.name)
  constructor
  · rw [fits_iff hnames, (hperm.map request.extra).sum_eq,
      (hperm.map request.standardExtra).sum_eq,
      (hperm.map request.countExtra).sum_eq]
    have hbytes := h.bytes
    have hstandardBytes := h.standardBytes
    have hcounted := h.count
    rw [List.append_nil] at hbytes hstandardBytes hcounted
    omega
  · intro v hv
    obtain ⟨hmem, hunused⟩ := List.mem_filter.1 hv
    rcases h.reasons v (hperm.mem_iff.1 hmem) with hused | ⟨hwithin, -⟩
    · exact absurd hused (of_decide_eq_true hunused)
    · exact hwithin

end Request

theorem Measured.entries_unique (measured : Measured) :
    (measured.entries.map Volume.name).Nodup :=
  measured.unique.sublist (List.filter_sublist.map Volume.name)

/-- Only unused volumes of the cache are deleted; what is left after a success
is within the limits; and where there is no room, the volumes in use are in the
way. -/
theorem reserve_guarded (clock : Clock) (daemon : Daemon) (request : Request)
    (measured : Measured) :
    Guarded request measured
      (reserveProjectVolume clock daemon request measured) := by
  have hunique := measured.entries_unique
  have hperm : (measured.entries.mergeSort (olderFirst clock)).Perm
      measured.entries := List.mergeSort_perm _ _
  unfold reserveProjectVolume
  simp only [← Measured.entries.eq_def]
  split
  · constructor
    · intro v hv
      cases hv
    · intro _ hnone
      cases hnone
    · intro _ hlimit
      cases hlimit
  · rename_i htrusted
    have hsizes : ∀ v ∈ measured.entries, 0 ≤ v.size := fun v hv =>
      Request.size_of_trusted
        (Bool.eq_false_iff.2 fun hdistrusted =>
          htrusted (List.any_eq_true.2 ⟨v, hv, hdistrusted⟩))
    cases hrun : request.evict daemon
        (measured.entries.mergeSort (olderFirst clock))
        (request.initial measured.entries) with
    | mk last error =>
      have hdeleted : ∀ v ∈ last.deleted,
          v ∈ measured.volumes ∧ v.isCache = true ∧ ¬0 < v.refCount := by
        intro v hv
        have hwhole := @Request.evict_deleted request
          daemon (measured.entries.mergeSort (olderFirst clock))
          (request.initial measured.entries) v
        rw [hrun] at hwhole
        rcases hwhole hv with hnone | ⟨hmem, hunused⟩
        · cases hnone
        · obtain ⟨hvolume, hcache⟩ :=
            List.mem_filter.1 (hperm.mem_iff.1 hmem)
          exact ⟨hvolume, hcache, hunused⟩
      cases error with
      | some error =>
        constructor
        · exact hdeleted
        · intro _ hnone
          cases hnone
        · intro _ hlimit
          have hnot := @Request.evict_not_limit request
            daemon
            (measured.entries.mergeSort (olderFirst clock))
            (request.initial measured.entries)
          rw [hrun] at hnot
          exact absurd hlimit hnot
      | none =>
        have hdone : request.charged measured.entries ≤ exactBytes →
            ∃ kept, Request.Progress request measured.entries kept []
              last := by
          intro hexact
          obtain ⟨kept, hkept⟩ :=
            (Request.Progress.start hperm hunique hsizes hexact).evict hrun
          exact ⟨kept, { hkept with split := hkept.split.trans hperm }⟩
        simp only
        split
        · rename_i hover
          constructor
          · exact hdeleted
          · intro _ hnone
            cases hnone
          · intro hexact _
            obtain ⟨kept, hkept⟩ := hdone hexact
            exact hkept.exceeded hunique hover
        · rename_i hroom
          constructor
          · exact hdeleted
          · intro hexact _
            obtain ⟨kept, hkept⟩ := hdone hexact
            exact hkept.fitting hunique hroom
          · intro _ hlimit
            cases hlimit

namespace Overcommitted

def clock : Clock where
  dateParse _ := none
  localeCompare := compare

def name (unit : UInt16) : JsString :=
  cachePrefix ++ List.replicate 64 unit

def request : Request := ⟨name 0x30, .standard⟩

/-- A web development volume. -/
def volume (unit : UInt16) (size refCount : Int) : Volume where
  name := name unit
  driver := text "local"
  options := []
  cacheLabel := some (text "sha256:" ++ List.replicate 64 unit)
  profileLabel := some (text "web-development")
  createdAt := none
  usage := some ⟨size, refCount⟩

/-- The daemon has the volumes that it reports. -/
def daemon (volumes : List Volume) : Daemon where
  inspect name := volumes.find? (·.name = name)
  remove _ := true

/-- A volume that is in use and larger than its limit. -/
def used : Measured where
  volumes := [volume 0x61 600000000 1]
  unique := by decide

/-- So much that the total is rounded. -/
def huge : Measured where
  volumes := [volume 0x61 9007199254740988 0, volume 0x62 512000000 0,
    volume 0x63 384000001 0]
  unique := by decide

theorem sorted_huge :
    huge.entries.mergeSort (olderFirst clock) = huge.volumes := by
  have hentries : huge.entries = huge.volumes := by decide
  rw [hentries]
  exact List.mergeSort_of_pairwise (by decide)

theorem reserved_used :
    reserveProjectVolume clock (daemon used.volumes) request used =
      ⟨[], none⟩ := by
  decide +kernel

theorem reserved_huge :
    reserveProjectVolume clock (daemon huge.volumes) request huge =
      ⟨[volume 0x61 9007199254740988 0], none⟩ := by
  unfold reserveProjectVolume
  simp only [← Measured.entries.eq_def, sorted_huge]
  decide

/-- A success leaves a volume in use over its limit, and totals that are only
within theirs when they are rounded. -/
theorem reserve_overcommits :
    (¬∀ (clock : Clock) (daemon : Daemon) (request : Request)
        (measured : Measured),
      (reserveProjectVolume clock daemon request measured).error = none →
        request.WithinLimits (remaining measured
          (reserveProjectVolume clock daemon request measured))) ∧
      ¬∀ (clock : Clock) (daemon : Daemon) (request : Request)
          (measured : Measured),
        (reserveProjectVolume clock daemon request measured).error = none →
          request.Fits (remaining measured
            (reserveProjectVolume clock daemon request measured)) := by
  constructor
  · intro hall
    have hwithin := hall clock (daemon used.volumes) request used
    rw [reserved_used] at hwithin
    have hsize := hwithin rfl (volume 0x61 600000000 1) (by decide)
    revert hsize
    decide
  · intro hall
    have hfits := hall clock (daemon huge.volumes) request huge
    rw [reserved_huge] at hfits
    have hpool := (hfits rfl).pool
    revert hpool
    decide

end Overcommitted

end Allrice.ProjectCache
