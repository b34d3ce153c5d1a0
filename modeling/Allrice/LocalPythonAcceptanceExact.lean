/-
An archive can be read in one way only.  So the reader returns a file only from
a well-formed archive exactly where the records of its extended headers are
written as records and none of the headers stands behind the file; a record
without an equals sign is taken for a path.
-/
import Allrice.ArchiveRecords
import Allrice.LocalPythonAcceptance

namespace Allrice.LocalPythonAcceptance

open DigitText Splice Utf8Stream Utf8Text

theorem record_unique {first second : PaxRecord} (hfirst : first.Counted)
    (hsecond : second.Counted) {rest behind : List UInt8}
    (h : first.bytes ++ rest = second.bytes ++ behind) :
    first = second ∧ rest = behind := by
  have hdigits : first.digits = second.digits := by
    rw [← PaxRecord.takeWhile_digits hfirst.blank rest, h,
      PaxRecord.takeWhile_digits hsecond.blank]
  have hlength : first.bytes.length = second.bytes.length := by
    have hcount := hfirst.length
    rw [hdigits, hsecond.length] at hcount
    exact (Int.ofNat.inj (Option.some.inj hcount)).symm
  obtain ⟨hbytes, hrest⟩ := List.append_inj h hlength
  refine ⟨?_, hrest⟩
  obtain ⟨digits, content⟩ := first
  obtain ⟨digits', content'⟩ := second
  obtain rfl : digits = digits' := hdigits
  simpa [PaxRecord.bytes] using hbytes

theorem records_unique {first second : List PaxRecord}
    (hfirst : ∀ record ∈ first, record.Counted)
    (hsecond : ∀ record ∈ second, record.Counted)
    (h : first.flatMap PaxRecord.bytes = second.flatMap PaxRecord.bytes) :
    first = second := by
  induction first generalizing second with
  | nil =>
    cases second with
    | nil => rfl
    | cons record records =>
      rw [List.flatMap_nil, List.flatMap_cons] at h
      exact absurd (List.append_eq_nil_iff.1 h.symm).1 record.bytes_ne_nil
  | cons record records ih =>
    obtain ⟨hrecord, hrecords⟩ := List.forall_mem_cons.1 hfirst
    cases second with
    | nil =>
      rw [List.flatMap_nil, List.flatMap_cons] at h
      exact absurd (List.append_eq_nil_iff.1 h).1 record.bytes_ne_nil
    | cons other others =>
      obtain ⟨hother, hothers⟩ := List.forall_mem_cons.1 hsecond
      obtain ⟨rfl, hrest⟩ := record_unique hrecord hother h
      rw [ih hrecords hothers hrest]

theorem entry_unique {first second : Entry} (hfirst : first.Sound)
    (hsecond : second.Sound) {rest behind : List UInt8}
    (h : first.bytes ++ rest = second.bytes ++ behind) :
    first = second ∧ rest = behind := by
  have hheader : first.header = second.header := by
    rw [← hfirst.take_header rest, h, hsecond.take_header]
  have hlength : first.body.length = second.body.length := by
    rw [← hfirst.size, hheader, hsecond.size]
  have htail := congrArg (List.drop block) h
  rw [hfirst.drop_header, hsecond.drop_header] at htail
  obtain ⟨hbody, htail⟩ := List.append_inj htail hlength
  have hfill : first.filler.length = second.filler.length := by
    have hcount := hfirst.filler
    rw [hlength, ← hsecond.filler] at hcount
    omega
  obtain ⟨hfiller, hrest⟩ := List.append_inj htail hfill
  refine ⟨?_, hrest⟩
  obtain ⟨header, body, filler⟩ := first
  obtain ⟨header', body', filler'⟩ := second
  obtain rfl : header = header' := hheader
  obtain rfl : body = body' := hbody
  obtain rfl : filler = filler' := hfiller
  rfl

theorem extended_unique {first second : ExtendedHeader} (hfirst : first.Sound)
    (hsecond : second.Sound) {rest behind : List UInt8}
    (h : first.bytes ++ rest = second.bytes ++ behind) :
    first = second ∧ rest = behind := by
  obtain ⟨hentry, hrest⟩ := entry_unique hfirst.entry hsecond.entry h
  refine ⟨?_, hrest⟩
  have hbody : first.records = second.records :=
    records_unique hfirst.counted hsecond.counted (congrArg Entry.body hentry)
  obtain ⟨header, records, filler⟩ := first
  obtain ⟨header', records', filler'⟩ := second
  obtain rfl : header = header' := congrArg Entry.header hentry
  obtain rfl : filler = filler' := congrArg Entry.filler hentry
  obtain rfl : records = records' := hbody
  rfl

theorem headers_unique {first second : List ExtendedHeader}
    (hfirst : Chain first) (hsecond : Chain second)
    {rest behind : List UInt8} (hrest : Stops rest) (hbehind : Stops behind)
    (h : first.flatMap ExtendedHeader.bytes ++ rest =
      second.flatMap ExtendedHeader.bytes ++ behind) :
    first = second ∧ rest = behind := by
  induction first generalizing second with
  | nil =>
    cases second with
    | nil => exact ⟨rfl, h⟩
    | cons other others =>
      have hother := hsecond.sound other List.mem_cons_self
      rw [List.flatMap_nil, List.nil_append, List.flatMap_cons,
        List.append_assoc] at h
      exact absurd hother.type (hrest _ _ hother.entry h)
  | cons extended headers ih =>
    obtain ⟨hextended, hheaders⟩ := List.forall_mem_cons.1 hfirst.sound
    cases second with
    | nil =>
      rw [List.flatMap_nil, List.nil_append, List.flatMap_cons,
        List.append_assoc] at h
      exact absurd hextended.type (hbehind _ _ hextended.entry h.symm)
    | cons other others =>
      obtain ⟨hother, hothers⟩ := List.forall_mem_cons.1 hsecond.sound
      rw [List.flatMap_cons, List.append_assoc, List.flatMap_cons,
        List.append_assoc] at h
      obtain ⟨rfl, htail⟩ := extended_unique hextended hother h
      obtain ⟨rfl, hsame⟩ := @ih others
        ⟨hheaders, (List.pairwise_cons.1 hfirst.once).2⟩
        ⟨hothers, (List.pairwise_cons.1 hsecond.once).2⟩ htail
      exact ⟨rfl, hsame⟩

theorem zeros_stop (zeros : Nat) : Stops (List.replicate zeros 0) :=
  fun _ _ hentry hsame => (zeros_no_entry hentry hsame).elim

theorem file_stops {file : Entry} (hfile : file.Sound)
    (hregular : file.type = JsString.ofString "0" ∨ file.type = [])
    (rest : List UInt8) : Stops (file.bytes ++ rest) := by
  intro entry behind hentry hsame
  obtain ⟨rfl, -⟩ := entry_unique hfile hentry hsame
  rcases hregular with htype | htype
  · rw [htype]
    decide
  · rw [htype]
    decide

theorem archive_unique {first second : Archive} {expectedName : JsString}
    {maximum : Nat} (hfirst : first.Sound expectedName maximum)
    (hsecond : second.Sound expectedName maximum)
    (h : first.bytes = second.bytes) : first = second := by
  obtain ⟨hbefore, htail⟩ := headers_unique hfirst.before hsecond.before
    (file_stops hfirst.file hfirst.regular _)
    (file_stops hsecond.file hsecond.regular _) h
  obtain ⟨hfile, htail⟩ := entry_unique hfirst.file hsecond.file htail
  obtain ⟨hbehind, hzeros⟩ := headers_unique hfirst.behind hsecond.behind
    (zeros_stop _) (zeros_stop _) htail
  have hcount := congrArg List.length hzeros
  rw [List.length_replicate, List.length_replicate] at hcount
  obtain ⟨before, file, behind, zeros⟩ := first
  obtain ⟨before', file', behind', zeros'⟩ := second
  obtain rfl : before = before' := hbefore
  obtain rfl : file = file' := hfile
  obtain rfl : behind = behind' := hbehind
  obtain rfl : zeros = zeros' := hcount
  rfl

section Accepted

variable (bytes : List UInt8) (expectedName : JsString) (maximum : Nat)

/-- A well-formed archive from which this file is read. -/
def Holds (content : List UInt8) : Prop :=
  ∃ archive : Archive, archive.bytes = bytes ∧
    archive.Sound expectedName maximum ∧ archive.WellFormed ∧
      archive.file.body = content

theorem readLocalPythonArchive_plain
    (hplain : isRuntimeRelativePath expectedName = true)
    (hslash : (0x2F : UInt16) ∉ expectedName) :
    readLocalPythonArchive bytes expectedName maximum =
      readEntries expectedName maximum none none bytes := by
  rw [readLocalPythonArchive, if_neg]
  simp [hplain, hslash]

theorem readLocalPythonArchive_sound {archive : Archive}
    (hplain : isRuntimeRelativePath expectedName = true)
    (hslash : (0x2F : UInt16) ∉ expectedName)
    (h : archive.Sound expectedName maximum) :
    readLocalPythonArchive archive.bytes expectedName maximum =
      .ok archive.file.body := by
  rw [readLocalPythonArchive_plain _ _ _ hplain hslash]
  exact readEntries_iff.2 ⟨archive, rfl, h, rfl⟩

theorem readLocalPythonArchive_refused
    (h : ¬(isRuntimeRelativePath expectedName = true ∧
      (0x2F : UInt16) ∉ expectedName)) :
    readLocalPythonArchive bytes expectedName maximum =
      .error .artifactPathChanged := by
  rw [readLocalPythonArchive, if_pos]
  rw [not_and_or, Bool.not_eq_true, not_not] at h
  exact h

/-- Content is returned only from a well-formed archive, and an error for any
other input, exactly if no extended header of an archive that is otherwise right
stands behind the file or has a record whose length is not in digits or that has
no equals sign. -/
theorem archive_accepted_iff :
    ((∀ content, readLocalPythonArchive bytes expectedName maximum =
          .ok content → Holds bytes expectedName maximum content) ∧
      ((¬∃ content, Holds bytes expectedName maximum content) →
        ∃ error, readLocalPythonArchive bytes expectedName maximum =
          .error error)) ↔
      (isRuntimeRelativePath expectedName = true →
        (0x2F : UInt16) ∉ expectedName → ∀ archive : Archive,
          archive.bytes = bytes → archive.Sound expectedName maximum →
            archive.WellFormed) := by
  constructor
  · rintro ⟨hholds, -⟩ hplain hslash archive rfl hsound
    obtain ⟨other, hbytes, hother, hwritten, -⟩ := hholds _
      (readLocalPythonArchive_sound _ _ hplain hslash hsound)
    rw [← archive_unique hother hsound hbytes]
    exact hwritten
  · intro hwritten
    have hholds : ∀ content, readLocalPythonArchive bytes expectedName maximum =
        .ok content → Holds bytes expectedName maximum content := by
      intro content hread
      by_cases hname : isRuntimeRelativePath expectedName = true ∧
          (0x2F : UInt16) ∉ expectedName
      · rw [readLocalPythonArchive_plain _ _ _ hname.1 hname.2] at hread
        obtain ⟨archive, rfl, hsound, rfl⟩ := readEntries_iff.1 hread
        exact ⟨archive, rfl, hsound,
          hwritten hname.1 hname.2 archive rfl hsound, rfl⟩
      · rw [readLocalPythonArchive_refused _ _ _ hname] at hread
        cases hread
    refine ⟨hholds, fun hnone => ?_⟩
    cases hread : readLocalPythonArchive bytes expectedName maximum with
    | error error => exact ⟨error, rfl⟩
    | ok content => exact absurd ⟨content, hholds content hread⟩ hnone

end Accepted

namespace LocalPythonAcceptanceWitness

/-- An entry with the header that is written for it. -/
def written (name type : String) (body filler : List UInt8) : Entry :=
  ⟨(header (JsString.ofString name) body.length (JsString.ofString type)
    0o600).bytes, body, filler⟩

/-- `8 pathX`: a length, no equals sign. -/
def record : PaxRecord := ⟨[56], [112, 97, 116, 104, 88]⟩

theorem record_counted : record.Counted := by
  constructor <;> decide +kernel

def extended : ExtendedHeader :=
  ⟨(written "PaxHeader" "x" record.bytes []).header, [record],
    List.replicate 504 0⟩

theorem extended_sound : extended.Sound where
  entry := by constructor <;> decide +kernel
  type := by decide +kernel
  size := by decide
  counted := List.forall_mem_singleton.2 record_counted
  allowed := List.forall_mem_singleton.2 (.inl (by decide +kernel))
  once := by decide +kernel

/-- The record's path is the name that is expected. -/
def archive : Archive :=
  ⟨[extended], written "a" "0" [7] (List.replicate 511 0), [], 1024⟩

theorem archive_sound : archive.Sound (JsString.ofString "pathX") 1 where
  before := ⟨List.forall_mem_singleton.2 extended_sound,
    List.pairwise_singleton _ _⟩
  file := by constructor <;> decide +kernel
  regular := .inl (by decide +kernel)
  name := by decide +kernel
  size := by decide
  behind := ⟨nofun, List.Pairwise.nil⟩
  zeros := by decide

/-- The file is returned from an archive whose only record is not one. -/
theorem unequal_record_accepted :
    ¬∀ (bytes : List UInt8) (expectedName : JsString) (maximum : Nat)
      (content : List UInt8),
      readLocalPythonArchive bytes expectedName maximum = .ok content →
        Holds bytes expectedName maximum content := by
  intro h
  obtain ⟨other, hbytes, hsound, hwritten, -⟩ := h _ _ _ _
    (readLocalPythonArchive_sound _ _ (by decide +kernel) (by decide +kernel)
      archive_sound)
  obtain rfl := archive_unique hsound archive_sound hbytes
  have hequals := (hwritten.records extended List.mem_cons_self record
    List.mem_cons_self).equals
  revert hequals
  decide_cbv

end LocalPythonAcceptanceWitness

end Allrice.LocalPythonAcceptance
