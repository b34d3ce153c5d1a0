/-
Reading back the archive of one file.  The name of the file decides whether its
bytes come back: the header's field loses blanks at the end of a short name, and
a PAX record carries a long one as long as it is not too long itself.
-/
import Allrice.ArchiveRecords

namespace Allrice

open DigitText Splice Utf8Stream Utf8Text

/-- The archive of one file, read back. -/
def roundTrip (path : JsString) (bytes : List UInt8) (maximum : Nat) :
    Except ArchiveError (List UInt8) := do
  let archive ← createLocalPythonArchive [⟨path, bytes, none⟩]
  readLocalPythonArchive archive path maximum

theorem padding_length (size : Nat) :
    size + (padding size).length = blocksOf size := by
  simp only [padding, List.length_replicate, blocksOf, block]
  omega

/-- An entry at the front of some bytes. -/
structure StartsWithEntry (bytes : List UInt8) (name : JsString)
    (body : List UInt8) (type : JsString) (mode : Nat)
    (more : List UInt8) : Prop where
  long : ¬bytes.length < block
  head : bytes.take block = (header name body.length type mode).bytes
  fits : ¬(bytes.drop block).length < blocksOf body.length
  taken : (bytes.drop block).take body.length = body
  left : (bytes.drop block).drop (blocksOf body.length) = more

theorem entry_starts (name : JsString) (body : List UInt8) (type : JsString)
    (mode : Nat) (more : List UInt8) :
    StartsWithEntry (tarEntry name body type mode ++ more) name body type
      mode more := by
  have hlength := (header name body.length type mode).length_eq
  have hpadding := padding_length body.length
  have hbytes : tarEntry name body type mode ++ more =
      (header name body.length type mode).bytes ++
        (body ++ (padding body.length ++ more)) := by
    simp only [tarEntry, List.append_assoc]
  have hdrop : (tarEntry name body type mode ++ more).drop block =
      body ++ (padding body.length ++ more) := by
    rw [hbytes, ← hlength, List.drop_left]
  constructor
  · rw [hbytes, List.length_append, hlength]
    omega
  · rw [hbytes, ← hlength, List.take_left]
  · rw [hdrop, List.length_append, List.length_append]
    omega
  · rw [hdrop, List.take_left]
  · rw [hdrop, ← hpadding, ← List.append_assoc, ← List.length_append,
      List.drop_left]

section Entry

variable {name : JsString} {body more bytes : List UInt8} {mode : Nat}

/-- The type of a file and of a PAX record. -/
theorem isType_file : IsType (JsString.ofString "0") :=
  ⟨0x30, by decide, by decide, by decide⟩

theorem isType_pax : IsType (JsString.ofString "x") :=
  ⟨0x78, by decide, by decide, by decide⟩

/-- The entry of a file. -/
theorem readEntries_file (hname : (encode name).length ≤ 100)
    (hzero : (0 : UInt16) ∉ name) (hsize : body.length < 8 ^ 11)
    (hpos : 1 ≤ body.length) {maximum : Nat} (hmax : body.length ≤ maximum)
    (expectedName : JsString) (pax : Option JsString)
    (h : StartsWithEntry bytes name body (JsString.ofString "0") mode more) :
    readEntries expectedName maximum pax none bytes =
      if pax.getD (JsString.trimEnd (toWellFormed name)) = expectedName then
        readEntries expectedName maximum none (some body) more
      else .error .artifactArchiveInvalid := by
  have hread := readHeader_header name body.length (JsString.ofString "0")
    mode hname hzero hsize isType_file
  have hnotzero := header_not_zero name body.length (JsString.ofString "0")
    mode
  have hfile : ¬JsString.ofString "0" = JsString.ofString "x" := by decide
  have hsafe : ¬2 ^ 53 ≤ body.length := by omega
  rw [readEntries, dif_neg h.long]
  simp only [h.head, hnotzero, hread, hfile, h.taken, h.left]
  rw [if_neg (by decide), if_neg (by
    simp only [if_false, ne_eq, not_true_eq_false, or_false]
    have hfits := h.fits
    omega), if_neg (by decide)]
  by_cases hsame : pax.getD (JsString.trimEnd (toWellFormed name)) =
      expectedName
  · rw [if_pos hsame, if_neg]
    simp only [ne_eq, not_true_eq_false, if_false, hsame, false_and,
      Option.isSome_none, Bool.false_eq_true, false_or]
    omega
  · rw [if_neg hsame, if_pos]
    simp [hsame]

/-- The entry of a PAX record. -/
theorem readEntries_pax (hname : (encode name).length ≤ 100)
    (hzero : (0 : UInt16) ∉ name) (hsize : body.length < 8 ^ 11)
    (expectedName : JsString) (maximum : Nat)
    (h : StartsWithEntry bytes name body (JsString.ofString "x") mode more) :
    readEntries expectedName maximum none none bytes =
      if 4096 < body.length then .error .artifactLimit
      else
        match readRecords none body with
        | .error error => .error error
        | .ok pax => readEntries expectedName maximum pax none more := by
  have hread := readHeader_header name body.length (JsString.ofString "x")
    mode hname hzero hsize isType_pax
  have hnotzero := header_not_zero name body.length (JsString.ofString "x")
    mode
  have hsafe : ¬2 ^ 53 ≤ body.length := by omega
  rw [readEntries, dif_neg h.long]
  simp only [h.head, hnotzero, hread, h.taken, h.left, if_true]
  rw [if_neg (by decide)]
  by_cases hlong : 4096 < body.length
  · rw [if_pos hlong, if_pos (.inr (.inl hlong))]
  · have hfits := h.fits
    rw [if_neg hlong, if_neg (by
      simp only [ne_eq, not_true_eq_false, or_false]
      omega)]
    refine (if_neg (by simp)).trans ?_
    cases readRecords none body with
    | error error | ok pax => rfl

end Entry

/-- The blocks of zeros at the end. -/
theorem readEntries_end (expectedName : JsString) (maximum : Nat)
    (pax : Option JsString) (output : List UInt8) :
    readEntries expectedName maximum pax (some output)
        (List.replicate 1024 0) = .ok output := by
  have hlong : ¬(List.replicate 1024 (0 : UInt8)).length < block := by
    rw [List.length_replicate]
    decide
  have hzeros : ((List.replicate 1024 (0 : UInt8)).take block).all
      (· == 0) = true := by
    rw [List.take_replicate, List.all_replicate]
    decide
  have hrest : ((List.replicate 1024 (0 : UInt8)).drop block).any
      (· != 0) = false := by
    rw [List.drop_replicate, List.any_replicate]
    decide
  rw [readEntries, dif_neg hlong]
  simp only [hzeros, hrest, if_true]
  rfl

theorem codePoints_ne_zero {path : JsString}
    (h : ∀ point ∈ JsString.codePoints path, ∀ unit ∈ point.head?,
      32 ≤ unit.toNat) : (0 : UInt16) ∉ path := by
  induction path using JsString.codePoints.induct with
  | case1 => simp
  | case2 unit =>
    intro hmem
    have hlow := h [unit] (by simp [JsString.codePoints]) unit rfl
    rw [← List.mem_singleton.mp hmem] at hlow
    exact absurd hlow (by decide)
  | case3 unit next rest hpair ih =>
    have hpoints : JsString.codePoints (unit :: next :: rest) =
        [unit, next] :: JsString.codePoints rest := by
      rw [JsString.codePoints, if_pos hpair]
    rw [hpoints] at h
    have hunit := h [unit, next] (by simp) unit rfl
    have hrest := ih fun point hpoint => h point (by simp [hpoint])
    intro hmem
    rcases List.mem_cons.mp hmem with rfl | hmem
    · exact absurd hunit (by decide)
    · rcases List.mem_cons.mp hmem with rfl | hmem
      · rw [Bool.and_eq_true] at hpair
        exact absurd hpair.2 (by decide)
      · exact hrest hmem
  | case4 unit next rest hpair ih =>
    have hpoints : JsString.codePoints (unit :: next :: rest) =
        [unit] :: JsString.codePoints (next :: rest) := by
      rw [JsString.codePoints, if_neg hpair]
    rw [hpoints] at h
    have hunit := h [unit] (by simp) unit rfl
    have hrest := ih fun point hpoint => h point (by simp [hpoint])
    intro hmem
    rcases List.mem_cons.mp hmem with rfl | hmem
    · exact absurd hunit (by decide)
    · exact hrest hmem

theorem path_no_zero {path : JsString}
    (h : isRuntimeRelativePath path = true) : (0 : UInt16) ∉ path := by
  apply codePoints_ne_zero
  simp only [isRuntimeRelativePath, Bool.and_eq_true, List.all_eq_true] at h
  intro point hpoint unit hunit
  have hchecked := h.1.2 point hpoint
  rw [Option.mem_def.mp hunit] at hchecked
  simp only [Option.any_some, Bool.and_eq_true, decide_eq_true_eq]
    at hchecked
  exact hchecked.1

theorem inner_name : (encode (JsString.ofString "file" ++
      digitsOf 10 0)).length ≤ 100 ∧
    (0 : UInt16) ∉ JsString.ofString "file" ++ digitsOf 10 0 := by
  decide

theorem record_name : (encode (JsString.ofString "PaxHeaders/" ++
      (JsString.ofString "file" ++ digitsOf 10 0))).length ≤ 100 ∧
    (0 : UInt16) ∉ JsString.ofString "PaxHeaders/" ++
      (JsString.ofString "file" ++ digitsOf 10 0) := by
  decide

theorem entry_length (name : JsString) (body : List UInt8) (type : JsString)
    (mode : Nat) :
    (tarEntry name body type mode).length = block + blocksOf body.length := by
  have hheader := (header name body.length type mode).length_eq
  have hpadding := padding_length body.length
  simp only [tarEntry, List.length_append]
  omega

/-- The entries of one file, with the zeros behind them. -/
def archiveOf (path : JsString) (bytes : List UInt8) : List UInt8 :=
  let name := JsString.ofString "file" ++ digitsOf 10 0
  let own name := tarEntry name bytes (JsString.ofString "0") 0o400 ++
    List.replicate 1024 0
  if 100 < (encode path).length then
    tarEntry (JsString.ofString "PaxHeaders/" ++ name) (paxPath path)
      (JsString.ofString "x") 0o400 ++ own name
  else own path

/-- How long the archive of one file is. -/
def archiveLength (path : JsString) (size : Nat) : Nat :=
  (if 100 < (encode path).length then
      block + blocksOf (paxPath path).length
    else 0) + (block + blocksOf size + 1024)

section Archive

variable {path : JsString} {bytes : List UInt8} {maximum : Nat}

theorem archiveOf_length :
    (archiveOf path bytes).length = archiveLength path bytes.length := by
  unfold archiveOf archiveLength
  simp only
  split
  · simp only [List.length_append, entry_length, List.length_replicate]
  · simp only [List.length_append, entry_length, List.length_replicate,
      Nat.zero_add]

theorem create_one (hpath : isRuntimeRelativePath path = true) :
    createLocalPythonArchive [⟨path, bytes, none⟩] =
      if 24000000 < archiveLength path bytes.length then .error .inputLimit
      else .ok (archiveOf path bytes) := by
  rw [← archiveOf_length]
  have hparts : ∃ parts,
      archiveEntries 0 [⟨path, bytes, none⟩] = .ok parts ∧
        parts ++ List.replicate 1024 0 = archiveOf path bytes := by
    unfold archiveOf
    simp only [archiveEntries, hpath, reduceCtorEq, if_false, bind,
      Except.bind, pure, Except.pure, List.append_nil, Option.getD_none,
      decide_eq_true_eq]
    refine ⟨_, rfl, ?_⟩
    by_cases hlong : 100 < (encode path).length
    · simp only [if_pos hlong, List.append_assoc]
    · simp only [if_neg hlong, List.nil_append]
  rcases hparts with ⟨parts, hentries, harchive⟩
  unfold createLocalPythonArchive
  simp only [hentries, bind, Except.bind, harchive, throw, throwThe,
    MonadExceptOf.throw, pure, Except.pure]

/-- The file's own entry, at the end. -/
theorem readEntries_own {name : JsString}
    (hname : (encode name).length ≤ 100) (hzero : (0 : UInt16) ∉ name)
    (hsize : bytes.length < 8 ^ 11) (hpos : 1 ≤ bytes.length)
    (hmax : bytes.length ≤ maximum) (pax : Option JsString) :
    readEntries path maximum pax none
        (tarEntry name bytes (JsString.ofString "0") 0o400 ++
          List.replicate 1024 0) =
      if pax.getD (JsString.trimEnd (toWellFormed name)) = path then
        .ok bytes
      else .error .artifactArchiveInvalid := by
  rw [readEntries_file hname hzero hsize hpos hmax path pax
    (entry_starts _ _ _ _ _), readEntries_end]

/-- What comes back for a name that fits into the header. -/
theorem readEntries_short (hpath : isRuntimeRelativePath path = true)
    (hshort : (encode path).length ≤ 100) (hsize : bytes.length < 8 ^ 11)
    (hpos : 1 ≤ bytes.length) (hmax : bytes.length ≤ maximum) :
    readEntries path maximum none none (archiveOf path bytes) =
      if JsString.trimEnd (toWellFormed path) = path then .ok bytes
      else .error .artifactArchiveInvalid := by
  unfold archiveOf
  simp only
  rw [if_neg (by omega),
    readEntries_own hshort (path_no_zero hpath) hsize hpos hmax]
  rfl

/-- What comes back for a name that has a record. -/
theorem readEntries_long (hlong : 100 < (encode path).length)
    (hsize : bytes.length < 8 ^ 11) (hpos : 1 ≤ bytes.length)
    (hmax : bytes.length ≤ maximum)
    (hrecord : (paxPath path).length < 8 ^ 11) :
    readEntries path maximum none none (archiveOf path bytes) =
      if 4085 < (encode path).length then .error .artifactLimit
      else if toWellFormed path = path then .ok bytes
      else .error .artifactArchiveInvalid := by
  have hfits := paxPath_fits path
  unfold archiveOf
  simp only
  rw [if_pos hlong, readEntries_pax record_name.1 record_name.2 hrecord
    path maximum (entry_starts _ _ _ _ _)]
  by_cases htoo : 4085 < (encode path).length
  · rw [if_pos htoo, if_pos (by omega)]
  · rw [if_neg htoo, if_neg (by omega),
      readRecords_paxPath path (by omega)]
    simp only
    rw [readEntries_own inner_name.1 inner_name.2 hsize hpos hmax]
    rfl

theorem trimEnd_prefix (text : JsString) :
    JsString.trimEnd text <+: text := by
  have hsuffix := List.dropWhile_suffix JsString.isWhitespace
    (l := text.reverse)
  have hprefix := List.reverse_prefix.mpr hsuffix
  rwa [List.reverse_reverse] at hprefix

/-- Without blanks at its end, a name is read as it is encoded. -/
theorem trimEnd_toWellFormed
    (hblank : ∀ unit ∈ path.getLast?, JsString.isWhitespace unit = false) :
    JsString.trimEnd (toWellFormed path) = path ↔
      toWellFormed path = path := by
  constructor
  · intro htrimmed
    have hlead := trimEnd_prefix (toWellFormed path)
    rw [htrimmed] at hlead
    have hlength := (toWellFormed_units path).1
    exact (hlead.eq_of_length hlength.symm).symm
  · intro hsame
    rw [hsame]
    exact JsString.trimEnd_of_last hblank

/-- The archives that can be written and read: not too large, with a name that
UTF-8 can spell and whose record is not too long. -/
structure Carried (path : JsString) (size : Nat) : Prop where
  fits : archiveLength path size ≤ 24000000
  wellFormed : toWellFormed path = path
  named : (encode path).length ≤ 4085

theorem le_blocksOf (size : Nat) : size ≤ blocksOf size := by
  have hpadding := padding_length size
  omega

theorem readLocalPythonArchive_one (hpath : isRuntimeRelativePath path = true)
    (hone : (0x2F : UInt16) ∉ path) (archive : List UInt8) :
    readLocalPythonArchive archive path maximum =
      readEntries path maximum none none archive := by
  rw [readLocalPythonArchive, if_neg]
  rintro (hfalse | hslash)
  · rw [hpath] at hfalse
    cases hfalse
  · exact hone hslash

theorem paxPath_small {size : Nat} (hlong : 100 < (encode path).length)
    (hfits : archiveLength path size ≤ 24000000) :
    (paxPath path).length < 8 ^ 11 := by
  have hle := le_blocksOf (paxPath path).length
  unfold archiveLength at hfits
  rw [if_pos hlong] at hfits
  omega

/-- A written archive is refused when the record of its name is too long. -/
theorem roundTrip_overlong (hpath : isRuntimeRelativePath path = true)
    (hone : (0x2F : UInt16) ∉ path) (hpos : 1 ≤ bytes.length)
    (hmax : bytes.length ≤ maximum) (hnamed : 4085 < (encode path).length)
    (hfits : archiveLength path bytes.length ≤ 24000000) :
    roundTrip path bytes maximum = .error .artifactLimit := by
  have hsize : bytes.length < 8 ^ 11 := by
    have hown := le_blocksOf bytes.length
    unfold archiveLength at hfits
    omega
  unfold roundTrip
  rw [create_one hpath, if_neg (not_lt.mpr hfits)]
  change readLocalPythonArchive _ path maximum = _
  rw [readLocalPythonArchive_one hpath hone,
    readEntries_long (by omega) hsize hpos hmax
      (paxPath_small (by omega) hfits), if_pos hnamed]

/-- The bytes of a file come back exactly when its archive can be carried.  A
name that fits into the header must not end with a blank. -/
theorem archive_round_trip (hpath : isRuntimeRelativePath path = true)
    (hone : (0x2F : UInt16) ∉ path) (hpos : 1 ≤ bytes.length)
    (hmax : bytes.length ≤ maximum)
    (hblank : (encode path).length ≤ 100 →
      ∀ unit ∈ path.getLast?, JsString.isWhitespace unit = false) :
    roundTrip path bytes maximum = .ok bytes ↔
      Carried path bytes.length := by
  have hown := le_blocksOf bytes.length
  unfold roundTrip
  rw [create_one hpath]
  by_cases hlarge : 24000000 < archiveLength path bytes.length
  · rw [if_pos hlarge]
    constructor
    · nofun
    · intro hcarried
      have hfits := hcarried.fits
      omega
  · rw [if_neg hlarge]
    have hsize : bytes.length < 8 ^ 11 := by
      unfold archiveLength at hlarge
      omega
    change readLocalPythonArchive _ path maximum = _ ↔ _
    rw [readLocalPythonArchive_one hpath hone]
    by_cases hlong : 100 < (encode path).length
    · have hrecord := paxPath_small hlong (not_lt.mp hlarge)
      rw [readEntries_long hlong hsize hpos hmax hrecord]
      constructor
      · intro hsame
        split at hsame
        · cases hsame
        · split at hsame
          · rename_i hnamed hwell
            exact ⟨by omega, hwell, by omega⟩
          · cases hsame
      · intro hcarried
        have hnamed := hcarried.named
        rw [if_neg (by omega), if_pos hcarried.wellFormed]
    · have hshort : (encode path).length ≤ 100 := by omega
      have htrim := trimEnd_toWellFormed (hblank hshort)
      rw [readEntries_short hpath hshort hsize hpos hmax]
      constructor
      · intro hsame
        split at hsame
        · rename_i htrimmed
          exact ⟨by omega, htrim.mp htrimmed, by omega⟩
        · cases hsame
      · intro hcarried
        rw [if_pos (htrim.mpr hcarried.wellFormed)]

end Archive

namespace ArchiveWitness

def plainName : JsString := JsString.ofString "a.py"

theorem archive_round_trip_plain :
    roundTrip plainName [7] 10 = .ok [7] := by
  have hlast : plainName.getLast? = some 0x79 := by decide
  apply (archive_round_trip (by decide) (by decide) (by decide) (by decide)
    ?_).mpr ⟨by decide, by decide, by decide⟩
  intro _ unit hunit
  rw [hlast] at hunit
  cases hunit
  decide

/-- A name whose record is longer than the reader's limit. -/
def longName : JsString := List.replicate 4086 0x61

theorem long_name_refused :
    isRuntimeRelativePath longName = true ∧ (0x2F : UInt16) ∉ longName ∧
      roundTrip longName [7] 10 = .error .artifactLimit :=
  ⟨by decide +kernel, by decide +kernel,
    roundTrip_overlong (by decide +kernel) (by decide +kernel) (by decide)
      (by decide) (by decide +kernel) (by decide +kernel)⟩

end ArchiveWitness

end Allrice
