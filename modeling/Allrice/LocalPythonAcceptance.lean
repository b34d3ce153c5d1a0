/-
What an archive from the sandbox has to be for its file to be read: extended
headers, the file, extended headers and zeros.  The reader accepts exactly
these, and each in one way only; but a record of an extended header need not be
written as one, and nothing asks for the headers behind the file.
-/
import Allrice.LocalPythonArchive

namespace Allrice.LocalPythonAcceptance

open DigitText Splice Utf8Stream Utf8Text

/-- A record of an extended header: the text of its length, a blank, what it
says, and a line feed. -/
structure PaxRecord where
  digits : List UInt8
  content : List UInt8

namespace PaxRecord

def bytes (record : PaxRecord) : List UInt8 :=
  record.digits ++ 32 :: (record.content ++ [10])

def key (record : PaxRecord) : JsString :=
  (recordParts (decode record.content)).1

def value (record : PaxRecord) : JsString :=
  (recordParts (decode record.content)).2

/-- The length stands before the first blank, and is the record's own. -/
structure Counted (record : PaxRecord) : Prop where
  blank : 32 ∉ record.digits
  length : (NumberText.ofText (asciiText record.digits)).toInt? =
    some (record.bytes.length : Int)

def Allowed (record : PaxRecord) : Prop :=
  record.key = JsString.ofString "path" ∨ record.key ∈ ignoredKeys

/-- The length is written in decimal digits, and an equals sign ends the key. -/
structure WellFormed (record : PaxRecord) : Prop where
  digits : record.digits ≠ [] ∧ ∀ byte ∈ record.digits, 48 ≤ byte ∧ byte ≤ 57
  equals : (0x3D : UInt16) ∈ decode record.content

end PaxRecord

/-- The paths that some records give, in order. -/
def pathsOf (records : List PaxRecord) : List JsString :=
  (records.filter fun record => record.key = JsString.ofString "path").map
    PaxRecord.value

/-- An entry: its header, its body and what fills the last block. -/
structure Entry where
  header : List UInt8
  body : List UInt8
  filler : List UInt8

namespace Entry

def bytes (entry : Entry) : List UInt8 :=
  entry.header ++ (entry.body ++ entry.filler)

def type (entry : Entry) : JsString := textOf entry.header 156 1

/-- The name that the header itself gives. -/
def headerName (entry : Entry) : JsString :=
  if textOf entry.header 345 155 ≠ [] then
    textOf entry.header 345 155 ++ 0x2F :: textOf entry.header 0 100
  else textOf entry.header 0 100

/-- The header is filled, its check sum is that of its bytes, its size is that
of the body, and it is no link. -/
structure Sound (entry : Entry) : Prop where
  length : entry.header.length = block
  filled : entry.header.all (· == 0) = false
  checksum : parseInt 8 (JsString.trim (textOf entry.header 148 8)) =
    some (byteSum (splice entry.header 148 (List.replicate 8 32)) : Int)
  octal : isOctal (JsString.trim (textOf entry.header 124 12)) = true
  size : valueOf 8 (JsString.trim (textOf entry.header 124 12)) =
    entry.body.length
  safe : entry.body.length < 2 ^ 53
  filler : entry.body.length + entry.filler.length =
    blocksOf entry.body.length
  link : textOf entry.header 157 100 = []

end Entry

/-- An extended header: its body is a list of records. -/
structure ExtendedHeader where
  header : List UInt8
  records : List PaxRecord
  filler : List UInt8

namespace ExtendedHeader

def entry (extended : ExtendedHeader) : Entry :=
  ⟨extended.header, extended.records.flatMap PaxRecord.bytes, extended.filler⟩

def bytes (extended : ExtendedHeader) : List UInt8 := extended.entry.bytes

/-- No path is given after one that is not empty. -/
structure Sound (extended : ExtendedHeader) : Prop where
  entry : extended.entry.Sound
  type : extended.entry.type = JsString.ofString "x"
  size : extended.entry.body.length ≤ 4096
  counted : ∀ record ∈ extended.records, record.Counted
  allowed : ∀ record ∈ extended.records, record.Allowed
  once : (pathsOf extended.records).Pairwise fun earlier _ => earlier = []

end ExtendedHeader

/-- Extended headers in a row: none follows one that gives a path. -/
structure Chain (headers : List ExtendedHeader) : Prop where
  sound : ∀ extended ∈ headers, extended.Sound
  once : headers.Pairwise fun earlier _ =>
    ∀ path ∈ pathsOf earlier.records, path = []

/-- The path that is in force behind some extended headers. -/
def pathBehind (path : Option JsString) (headers : List ExtendedHeader) :
    Option JsString :=
  headers.foldl (fun path extended =>
    ((pathsOf extended.records).getLast?).or path) path

structure Archive where
  before : List ExtendedHeader
  file : Entry
  behind : List ExtendedHeader
  zeros : Nat

namespace Archive

def bytes (archive : Archive) : List UInt8 :=
  archive.before.flatMap ExtendedHeader.bytes ++ (archive.file.bytes ++
    (archive.behind.flatMap ExtendedHeader.bytes ++
      List.replicate archive.zeros 0))

/-- The effective name of the file. -/
def name (archive : Archive) : JsString :=
  (pathBehind none archive.before).getD archive.file.headerName

/-- One regular file of the expected name and an allowed size, between extended
headers, and zeros behind them. -/
structure Sound (archive : Archive) (expectedName : JsString) (maximum : Nat) :
    Prop where
  before : Chain archive.before
  file : archive.file.Sound
  regular : archive.file.type = JsString.ofString "0" ∨ archive.file.type = []
  name : archive.name = expectedName
  size : 1 ≤ archive.file.body.length ∧ archive.file.body.length ≤ maximum
  behind : Chain archive.behind
  zeros : block ≤ archive.zeros

/-- Its extended headers consist of well-formed records, and only zeros stand
behind the file. -/
structure WellFormed (archive : Archive) : Prop where
  records : ∀ extended ∈ archive.before, ∀ record ∈ extended.records,
    record.WellFormed
  behind : archive.behind = []

end Archive

namespace PaxRecord

variable {record : PaxRecord}

theorem content_ne_nil (h : record.Allowed) : record.content ≠ [] := by
  intro hnil
  have hkey : record.key = [] := by
    rw [key, hnil]
    decide
  rw [Allowed, hkey] at h
  revert h
  decide

theorem Counted.digits_ne_nil (h : record.Counted) : record.digits ≠ [] := by
  intro hnil
  have hlength := h.length
  have hempty : (NumberText.ofText (asciiText [])).toInt? = some 0 :=
    JsNumber.toInt_ofDecimal (Nat.two_pow_pos 53)
  rw [hnil, hempty] at hlength
  have hzero := Option.some.inj hlength
  simp only [bytes, List.length_append, List.length_cons] at hzero
  omega

theorem bytes_ne_nil (record : PaxRecord) : record.bytes ≠ [] := by
  simp [bytes]

theorem bytes_length (record : PaxRecord) :
    record.bytes.length =
      record.digits.length + record.content.length + 2 := by
  simp only [bytes, List.length_append, List.length_cons, List.length_nil]
  omega

theorem takeWhile_digits (h : 32 ∉ record.digits) (rest : List UInt8) :
    (record.bytes ++ rest).takeWhile (· != 32) = record.digits := by
  rw [bytes, List.append_assoc, List.cons_append, List.takeWhile_append_of_pos]
  · simp
  · intro byte hbyte
    simp only [bne_iff_ne, ne_eq]
    rintro rfl
    exact h hbyte

theorem bytes_last (record : PaxRecord) (rest : List UInt8) :
    (record.bytes ++ rest)[record.bytes.length - 1]? = some 10 := by
  have hform : record.bytes ++ rest =
      (record.digits ++ 32 :: record.content) ++ 10 :: rest := by
    simp [bytes]
  have hlength : record.bytes.length - 1 =
      (record.digits ++ 32 :: record.content).length := by
    simp [bytes]
  rw [hform, hlength, List.getElem?_append_right (Nat.le_refl _), Nat.sub_self]
  rfl

theorem bytes_content (record : PaxRecord) (rest : List UInt8) :
    ((record.bytes ++ rest).take (record.bytes.length - 1)).drop
      (record.digits.length + 1) = record.content := by
  have hform : record.bytes ++ rest =
      (record.digits ++ 32 :: record.content) ++ 10 :: rest := by
    simp [bytes]
  have hlength : record.bytes.length - 1 =
      (record.digits ++ 32 :: record.content).length := by
    simp [bytes]
  rw [hform, hlength, List.take_left]
  simp

end PaxRecord

theorem readRecord_bytes {record : PaxRecord} (h : record.Counted)
    (hallowed : record.Allowed) (hsafe : record.bytes.length < 2 ^ 53)
    (rest : List UInt8) :
    readRecord (record.bytes ++ rest) =
      .ok (record.bytes.length, record.key, record.value) := by
  have hcontent := List.length_pos_iff.2 (PaxRecord.content_ne_nil hallowed)
  have hdigits := List.length_pos_iff.2 h.digits_ne_nil
  have hlength := record.bytes_length
  have hmem : (32 : UInt8) ∈ record.bytes ++ rest := by
    simp [PaxRecord.bytes]
  simp only [readRecord, PaxRecord.takeWhile_digits h.blank, h.length]
  rw [if_neg, Int.toNat_natCast, PaxRecord.bytes_content]
  · rfl
  · rw [Int.toNat_natCast, PaxRecord.bytes_last]
    simp only [hmem, not_true_eq_false, List.length_append, Int.natAbs_natCast,
      ne_eq, false_or, or_false, not_or]
    omega

variable {body : List UInt8} {pax : Option JsString} {key : JsString}

theorem split_blank (h : 32 ∈ body) :
    32 ∉ body.takeWhile (· != 32) ∧
      ∃ behind, body = body.takeWhile (· != 32) ++ 32 :: behind := by
  induction body with
  | nil => cases h
  | cons byte rest ih =>
    by_cases hbyte : byte = 32
    · simp [hbyte]
    · have hrest := (List.mem_cons.1 h).resolve_left fun hsame =>
        hbyte hsame.symm
      obtain ⟨hnot, behind, hbehind⟩ := ih hrest
      rw [List.takeWhile_cons_of_pos (by simpa using hbyte)]
      refine ⟨fun hmem => ?_, behind, ?_⟩
      · rcases List.mem_cons.1 hmem with hsame | hmem
        · exact hbyte hsame.symm
        · exact hnot hmem
      · rw [List.cons_append, ← hbehind]

variable {length : Nat} {paths : List JsString}

theorem readRecord_form {value : JsString}
    (h : readRecord body = .ok (length, key, value)) (hkey : key ≠ []) :
    ∃ record : PaxRecord, ∃ rest, body = record.bytes ++ rest ∧
      record.Counted ∧ record.bytes.length = length ∧ record.key = key ∧
        record.value = value := by
  unfold readRecord at h
  simp only at h
  split at h
  · cases h
  · rename_i count hcount
    split at h
    · cases h
    · rename_i hguard
      simp only [not_or, not_not, not_lt] at hguard
      obtain ⟨hblank, -, hfour, hfits, hlast⟩ := hguard
      obtain ⟨hlength, hparts⟩ := Prod.mk.inj (Except.ok.inj h)
      obtain ⟨hnot, behind, hbody⟩ := split_blank hblank
      generalize body.takeWhile (· != 32) = digits at *
      generalize hcontent : (body.take (count.toNat - 1)).drop
        (digits.length + 1) = content at *
      have hlong : digits.length + 1 < count.toNat - 1 := by
        by_contra hshort
        have hnil : content = [] := by
          rw [← hcontent, List.drop_eq_nil_iff, List.length_take]
          omega
        rw [hnil] at hparts
        exact hkey (congrArg Prod.fst hparts).symm
      have hfront : body.take (count.toNat - 1) = digits ++ 32 :: content := by
        rw [← List.take_append_drop (digits.length + 1)
          (body.take (count.toNat - 1)), hcontent, List.take_take,
          Nat.min_eq_left (by omega), hbody, List.take_length_add_append]
        simp
      have hend : body.drop (count.toNat - 1) = 10 :: body.drop count.toNat := by
        obtain ⟨hwithin, hten⟩ := List.getElem?_eq_some_iff.1 hlast
        rw [List.drop_eq_getElem_cons hwithin, hten]
        congr 2
        omega
      have hbytes : body = PaxRecord.bytes ⟨digits, content⟩ ++
          body.drop count.toNat := by
        conv => lhs; rw [← List.take_append_drop (count.toNat - 1) body, hfront,
          hend]
        simp [PaxRecord.bytes]
      have hcounted : (PaxRecord.bytes ⟨digits, content⟩).length =
          count.toNat := by
        have htotal := congrArg List.length hbytes
        rw [List.length_append, List.length_drop] at htotal
        omega
      refine ⟨⟨digits, content⟩, body.drop count.toNat, hbytes,
        ⟨hnot, ?_⟩, by rw [hcounted, hlength], ?_, ?_⟩
      · rw [hcount, hcounted, Int.toNat_of_nonneg (by omega)]
      · rw [PaxRecord.key, hparts]
      · rw [PaxRecord.value, hparts]

theorem Allowed_ne_nil {key : JsString}
    (h : key = JsString.ofString "path" ∨ key ∈ ignoredKeys) : key ≠ [] := by
  rintro rfl
  revert h
  decide

theorem pathsOf_cons (record : PaxRecord) (records : List PaxRecord) :
    pathsOf (record :: records) =
      if record.key = JsString.ofString "path" then
        record.value :: pathsOf records
      else pathsOf records := by
  by_cases hkey : record.key = JsString.ofString "path"
  · simp [pathsOf, hkey]
  · simp [pathsOf, hkey]

theorem readRecords_nil (pax : Option JsString) :
    readRecords pax [] = .ok pax := by
  rw [readRecords, if_pos rfl]

theorem readRecords_read {value : JsString}
    (h : readRecord body = .ok (length, key, value)) (hbody : body ≠ [])
    (pax : Option JsString) :
    readRecords pax body =
      if key = JsString.ofString "path" then
        if (pax.getD []) ≠ [] then .error .artifactArchiveInvalid
        else readRecords (some value) (body.drop length)
      else if key ∈ ignoredKeys then readRecords pax (body.drop length)
      else .error .artifactArchiveInvalid := by
  rw [readRecords, if_neg hbody]
  split
  · rename_i error hread
    rw [h] at hread
    cases hread
  · rename_i length' key' value' hread
    rw [h] at hread
    obtain ⟨rfl, rfl, rfl⟩ : length = length' ∧ key = key' ∧ value = value' := by
      simpa using hread
    rfl

/-- What the reader of an extended header accepts. -/
structure Recorded (pax : Option JsString) (records : List PaxRecord) :
    Prop where
  counted : ∀ record ∈ records, record.Counted
  allowed : ∀ record ∈ records, record.Allowed
  once : (pax.toList ++ pathsOf records).Pairwise fun earlier _ => earlier = []

theorem readRecords_bytes {records : List PaxRecord} (h : Recorded pax records)
    (hsafe : (records.flatMap PaxRecord.bytes).length < 2 ^ 53) :
    readRecords pax (records.flatMap PaxRecord.bytes) =
      .ok ((pathsOf records).getLast?.or pax) := by
  induction records generalizing pax with
  | nil => exact readRecords_nil pax
  | cons record records ih =>
    obtain ⟨hcounted, hallowed, honce⟩ := h
    obtain ⟨hcount, hcounts⟩ := List.forall_mem_cons.1 hcounted
    obtain ⟨hallow, hallows⟩ := List.forall_mem_cons.1 hallowed
    rw [List.flatMap_cons, List.length_append] at hsafe
    have hread := readRecord_bytes hcount hallow (by omega)
      (records.flatMap PaxRecord.bytes)
    rw [List.flatMap_cons, readRecords_read hread (by
      simp [PaxRecord.bytes_ne_nil]), List.drop_left]
    rw [pathsOf_cons] at honce ⊢
    by_cases hkey : record.key = JsString.ofString "path"
    · rw [if_pos hkey] at honce ⊢
      rw [if_pos hkey, if_neg, ih ⟨hcounts, hallows, ?_⟩ (by omega)]
      · rw [List.getLast?_cons]
        cases (pathsOf records).getLast? <;> rfl
      · exact (List.pairwise_append.1 honce).2.1
      · cases pax with
        | none => simp
        | some path =>
          have hfirst := (List.pairwise_append.1 honce).2.2 path
            (by simp) record.value (by simp)
          simp [hfirst]
    · rw [if_neg hkey] at honce ⊢
      rw [if_neg hkey, if_pos (hallow.resolve_left hkey)]
      exact ih ⟨hcounts, hallows, honce⟩ (by omega)

theorem readRecords_form {path : Option JsString}
    (h : readRecords pax body = .ok path) :
    ∃ records, body = records.flatMap PaxRecord.bytes ∧ Recorded pax records ∧
      path = (pathsOf records).getLast?.or pax := by
  induction hn : body.length using Nat.strong_induction_on
    generalizing body pax with
  | _ n ih =>
  by_cases hbody : body = []
  · rw [hbody, readRecords_nil] at h
    obtain rfl := Except.ok.inj h
    refine ⟨[], hbody, ⟨by simp, by simp, ?_⟩, rfl⟩
    cases pax <;> simp [pathsOf]
  · cases hread : readRecord body with
    | error error =>
      rw [readRecords, if_neg hbody] at h
      split at h
      · cases h
      · rename_i hok
        rw [hread] at hok
        cases hok
    | ok read =>
      obtain ⟨length, key, value⟩ := read
      rw [readRecords_read hread hbody] at h
      have hprogress := readRecord_progress hread
      have hshort : (body.drop length).length < n := by
        rw [List.length_drop]
        omega
      by_cases hkey : key = JsString.ofString "path"
      · rw [if_pos hkey] at h
        obtain ⟨record, rest, rfl, hcount, rfl, rfl, rfl⟩ :=
          readRecord_form hread (Allowed_ne_nil (.inl hkey))
        split at h
        · cases h
        · rename_i hempty
          rw [List.drop_left] at h hshort
          obtain ⟨records, rfl, hrecords, rfl⟩ := ih _ hshort h rfl
          have honce := hrecords.once
          refine ⟨record :: records, rfl, ⟨?_, ?_, ?_⟩, ?_⟩
          · exact List.forall_mem_cons.2 ⟨hcount, hrecords.counted⟩
          · exact List.forall_mem_cons.2 ⟨.inl hkey, hrecords.allowed⟩
          · rw [pathsOf_cons, if_pos hkey, List.pairwise_append]
            refine ⟨by cases pax <;> simp, honce, ?_⟩
            intro earlier hearlier _ _
            cases pax with
            | none => cases hearlier
            | some path =>
              obtain rfl := List.mem_singleton.1 hearlier
              exact not_not.1 hempty
          · rw [pathsOf_cons, if_pos hkey, List.getLast?_cons]
            cases (pathsOf records).getLast? <;> rfl
      · rw [if_neg hkey] at h
        by_cases hignored : key ∈ ignoredKeys
        · rw [if_pos hignored] at h
          obtain ⟨record, rest, rfl, hcount, rfl, rfl, rfl⟩ :=
            readRecord_form hread (Allowed_ne_nil (.inr hignored))
          rw [List.drop_left] at h hshort
          obtain ⟨records, rfl, hrecords, rfl⟩ := ih _ hshort h rfl
          refine ⟨record :: records, rfl, ⟨?_, ?_, ?_⟩, ?_⟩
          · exact List.forall_mem_cons.2 ⟨hcount, hrecords.counted⟩
          · exact List.forall_mem_cons.2 ⟨.inr hignored, hrecords.allowed⟩
          · rw [pathsOf_cons, if_neg hkey]
            exact hrecords.once
          · rw [pathsOf_cons, if_neg hkey]
        · rw [if_neg hignored] at h
          cases h

namespace Entry

variable {entry : Entry}

theorem Sound.readHeader_eq (h : entry.Sound) :
    readHeader entry.header = .ok ⟨entry.body.length, entry.type,
      textOf entry.header 0 100, textOf entry.header 345 155, []⟩ := by
  simp only [readHeader, h.octal, h.checksum, h.size, h.link, type]
  rw [if_neg (by simp)]

theorem Sound.take_header (h : entry.Sound) (rest : List UInt8) :
    (entry.bytes ++ rest).take block = entry.header := by
  rw [bytes, List.append_assoc, ← h.length, List.take_left]

theorem Sound.drop_header (h : entry.Sound) (rest : List UInt8) :
    (entry.bytes ++ rest).drop block = entry.body ++ (entry.filler ++ rest) := by
  rw [bytes, List.append_assoc, ← h.length, List.drop_left, List.append_assoc]

theorem Sound.drop_body (h : entry.Sound) (rest : List UInt8) :
    (entry.body ++ (entry.filler ++ rest)).drop (blocksOf entry.body.length) =
      rest := by
  rw [← h.filler, ← List.append_assoc, ← List.length_append, List.drop_left]

end Entry

section Reading

variable (expectedName : JsString) (maximum : Nat)

/-- What is done about one entry. -/
theorem readEntries_entry {entry : Entry} (h : entry.Sound)
    (pax : Option JsString) (output : Option (List UInt8)) (rest : List UInt8) :
    readEntries expectedName maximum pax output (entry.bytes ++ rest) =
      if entry.type = JsString.ofString "x" then
        if 4096 < entry.body.length then .error .artifactLimit
        else if pax.getD [] ≠ [] then .error .artifactArchiveInvalid
        else
          match readRecords pax entry.body with
          | .error error => .error error
          | .ok pax => readEntries expectedName maximum pax output rest
      else if maximum < entry.body.length then .error .artifactLimit
      else if (entry.type ≠ JsString.ofString "0" ∧ entry.type ≠ []) ∨
          pax.getD entry.headerName ≠ expectedName ∨ output.isSome ∨
            entry.body.length < 1 then .error .artifactArchiveInvalid
      else readEntries expectedName maximum none (some entry.body) rest := by
  have hlong : ¬(entry.bytes ++ rest).length < block := by
    rw [List.length_append, Entry.bytes, List.length_append, h.length]
    omega
  have hsafe := h.safe
  have hfits : ¬(entry.body ++ (entry.filler ++ rest)).length <
      blocksOf entry.body.length := by
    rw [List.length_append, List.length_append, ← h.filler]
    omega
  conv => lhs; rw [readEntries.eq_def, dif_neg hlong]
  simp only [h.take_header, h.drop_header, h.filled, h.readHeader_eq,
    List.take_left, h.drop_body, Bool.false_eq_true, if_false]
  have hpass : ∀ limit : Nat, ¬limit < entry.body.length →
      ¬(2 ^ 53 ≤ entry.body.length ∨ limit < entry.body.length ∨
        (entry.body ++ (entry.filler ++ rest)).length <
          blocksOf entry.body.length ∨ ([] : JsString) ≠ []) := by
    intro limit hmost
    simp only [not_or]
    exact ⟨by omega, hmost, hfits, not_not.2 rfl⟩
  by_cases htype : entry.type = JsString.ofString "x"
  · simp only [htype, if_true]
    by_cases hmost : 4096 < entry.body.length
    · rw [if_pos (.inr (.inl hmost)), if_pos hmost]
    · exact (if_neg (hpass 4096 hmost)).trans (if_neg hmost).symm
  · simp only [htype, if_false]
    by_cases hmost : maximum < entry.body.length
    · rw [if_pos (.inr (.inl hmost)), if_pos hmost]
    · exact (if_neg (hpass maximum hmost)).trans (if_neg hmost).symm

theorem blocksOf_le (size : Nat) : size ≤ blocksOf size := by
  simp only [blocksOf, block]
  omega

theorem all_zero {bytes : List UInt8} (h : bytes.all (· == 0) = true) :
    bytes = List.replicate bytes.length 0 := by
  rw [List.eq_replicate_iff]
  refine ⟨rfl, fun byte hbyte => ?_⟩
  simpa using List.all_eq_true.1 h byte hbyte

/-- Where the reader stops: at zeros, or before another entry. -/
theorem readEntries_form {expectedName : JsString} {maximum : Nat}
    {output : Option (List UInt8)} {bytes content : List UInt8}
    (h : readEntries expectedName maximum pax output bytes = .ok content) :
    (output = some content ∧ block ≤ bytes.length ∧
        bytes = List.replicate bytes.length 0) ∨
      ∃ entry : Entry, ∃ rest, entry.Sound ∧ bytes = entry.bytes ++ rest := by
  rw [readEntries.eq_def] at h
  split at h
  · cases h
  · rename_i hlong
    simp only at h
    split at h
    · rename_i hzero
      split at h
      · cases h
      · rename_i hrest
        cases output with
        | none => cases h
        | some output =>
          refine .inl ⟨congrArg some (Except.ok.inj h), by omega, ?_⟩
          apply all_zero
          rw [← List.take_append_drop block bytes, List.all_append, hzero]
          simpa using hrest
    · rename_i hfilled
      split at h
      · cases h
      · rename_i header hheader
        have hguard : ¬(2 ^ 53 ≤ header.size ∨
            (if header.type = JsString.ofString "x" then 4096 else maximum) <
              header.size ∨
            (bytes.drop block).length < blocksOf header.size ∨
              header.link ≠ []) := by
          intro hbad
          rw [if_pos hbad] at h
          cases h
        · clear h
          right
          simp only [not_or, not_not, not_lt] at hguard
          obtain ⟨hsafe, -, hfits, hlink⟩ := hguard
          unfold readHeader at hheader
          simp only at hheader
          split at hheader
          · cases hheader
          · rename_i hvalid
            simp only [not_or, not_not, Bool.not_eq_false] at hvalid
            obtain rfl := Except.ok.inj hheader
            simp only at hsafe hfits hlink
            have hle := blocksOf_le (valueOf 8 (JsString.trim
              (textOf (bytes.take block) 124 12)))
            generalize hsize : valueOf 8 (JsString.trim
              (textOf (bytes.take block) 124 12)) = size at *
            have hbody : ((bytes.drop block).take size).length = size := by
              rw [List.length_take]
              omega
            refine ⟨⟨bytes.take block, (bytes.drop block).take size,
              ((bytes.drop block).drop size).take (blocksOf size - size)⟩,
              (bytes.drop block).drop (blocksOf size), ?_, ?_⟩
            · refine ⟨?_, by simpa using hfilled, hvalid.2, hvalid.1, ?_, ?_, ?_,
                hlink⟩
              · rw [List.length_take]
                omega
              · rw [hsize, hbody]
              · rw [hbody]
                omega
              · rw [hbody, List.length_take, List.length_drop]
                omega
            · have hwhole : (bytes.drop block).drop (blocksOf size) =
                  ((bytes.drop block).drop size).drop (blocksOf size - size) := by
                conv => rhs; rw [List.drop_drop, Nat.add_sub_cancel' hle]
              rw [Entry.bytes, hwhole, List.append_assoc, List.append_assoc,
                List.take_append_drop, List.take_append_drop,
                List.take_append_drop]

end Reading

theorem getLast?_or_empty (hpaths : ∀ path ∈ paths, path = [])
    (hpax : pax.getD [] = []) : (paths.getLast?.or pax).getD [] = [] := by
  cases hlast : paths.getLast? with
  | none => simpa using hpax
  | some path => simpa using hpaths path (List.mem_of_getLast? hlast)

theorem pathBehind_cons (pax : Option JsString) (extended : ExtendedHeader)
    (headers : List ExtendedHeader) :
    pathBehind pax (extended :: headers) =
      pathBehind ((pathsOf extended.records).getLast?.or pax) headers := rfl

theorem pairwise_behind (hpax : pax.getD [] = [])
    (h : paths.Pairwise fun earlier _ => earlier = []) :
    (pax.toList ++ paths).Pairwise fun earlier _ => earlier = [] := by
  rw [List.pairwise_append]
  refine ⟨by cases pax <;> simp, h, ?_⟩
  intro earlier hearlier _ _
  cases pax with
  | none => cases hearlier
  | some path =>
    obtain rfl := List.mem_singleton.1 hearlier
    exact hpax

section Reading

variable {expectedName : JsString} {maximum : Nat} {pax : Option JsString}

/-- The reader goes over the extended headers before an entry or the end. -/
theorem readEntries_headers {headers : List ExtendedHeader} (h : Chain headers)
    (output : Option (List UInt8)) (rest : List UInt8)
    (hpax : headers = [] ∨ pax.getD [] = []) :
    readEntries expectedName maximum pax output
        (headers.flatMap ExtendedHeader.bytes ++ rest) =
      readEntries expectedName maximum (pathBehind pax headers) output rest := by
  induction headers generalizing pax with
  | nil => rfl
  | cons extended headers ih =>
    obtain ⟨hsound, hsounds⟩ := List.forall_mem_cons.1 h.sound
    obtain ⟨hfirst, honce⟩ := List.pairwise_cons.1 h.once
    have hopen := hpax.resolve_left (List.cons_ne_nil _ _)
    have hrecords : readRecords pax extended.entry.body =
        .ok ((pathsOf extended.records).getLast?.or pax) :=
      readRecords_bytes ⟨hsound.counted, hsound.allowed,
        pairwise_behind hopen hsound.once⟩ hsound.entry.safe
    rw [List.flatMap_cons, List.append_assoc, ExtendedHeader.bytes,
      readEntries_entry _ _ hsound.entry, if_pos hsound.type,
      if_neg (Nat.not_lt.2 hsound.size), if_neg (not_not.2 hopen), hrecords,
      pathBehind_cons]
    apply ih ⟨hsounds, honce⟩
    cases headers with
    | nil => exact .inl rfl
    | cons next headers =>
      exact .inr (getLast?_or_empty (hfirst next List.mem_cons_self) hopen)

/-- Neither zeros nor a file is an extended header. -/
def Stops (bytes : List UInt8) : Prop :=
  ∀ entry : Entry, ∀ rest, entry.Sound → bytes = entry.bytes ++ rest →
    entry.type ≠ JsString.ofString "x"

theorem paths_empty {paths : List JsString}
    (honce : paths.Pairwise fun earlier _ => earlier = [])
    (hlast : (paths.getLast?.or pax).getD [] = []) :
    ∀ path ∈ paths, path = [] := by
  induction paths using List.reverseRecOn with
  | nil => exact fun path hpath => absurd hpath List.not_mem_nil
  | append_singleton paths last _ =>
    rw [List.getLast?_append, List.getLast?_singleton] at hlast
    obtain ⟨-, -, hbefore⟩ := List.pairwise_append.1 honce
    intro path hpath
    rcases List.mem_append.1 hpath with hmem | hmem
    · exact hbefore path hmem last (List.mem_singleton.2 rfl)
    · rw [List.mem_singleton.1 hmem]
      simpa using hlast

variable {content : List UInt8} {zeros : Nat}

theorem readEntries_skip {output : Option (List UInt8)} {bytes : List UInt8}
    (h : readEntries expectedName maximum pax output bytes = .ok content) :
    ∃ headers rest, bytes = headers.flatMap ExtendedHeader.bytes ++ rest ∧
      Chain headers ∧ (headers = [] ∨ pax.getD [] = []) ∧ Stops rest ∧
        readEntries expectedName maximum (pathBehind pax headers) output rest =
          .ok content := by
  induction hn : bytes.length using Nat.strong_induction_on
    generalizing bytes pax with
  | _ n ih =>
  by_cases hstops : Stops bytes
  · exact ⟨[], bytes, rfl, ⟨by simp, by simp⟩, .inl rfl, hstops, h⟩
  · simp only [Stops, not_forall, not_not] at hstops
    obtain ⟨entry, rest, hentry, rfl, htype⟩ := hstops
    rw [readEntries_entry _ _ hentry, if_pos htype] at h
    split at h
    · cases h
    · rename_i hsize
      split at h
      · cases h
      · rename_i hopen
        rw [not_not] at hopen
        split at h
        · cases h
        · rename_i path hread
          obtain ⟨records, hbody, hrecords, rfl⟩ := readRecords_form hread
          have hshort : rest.length < n := by
            have hblock : block = 512 := rfl
            rw [← hn, List.length_append, Entry.bytes, List.length_append,
              hentry.length]
            omega
          obtain ⟨headers, behind, rfl, hchain, hnext, hstops, hrest⟩ :=
            ih _ hshort h rfl
          have hform : entry = ExtendedHeader.entry
              ⟨entry.header, records, entry.filler⟩ := by
            rw [ExtendedHeader.entry, ← hbody]
          have honce := (List.pairwise_append.1 hrecords.once).2.1
          refine ⟨⟨entry.header, records, entry.filler⟩ :: headers, behind,
            ?_, ⟨?_, ?_⟩, .inr hopen, hstops, hrest⟩
          · rw [List.flatMap_cons, List.append_assoc, ExtendedHeader.bytes,
              ← hform]
          · refine List.forall_mem_cons.2 ⟨⟨?_, ?_, ?_, hrecords.counted,
              hrecords.allowed, honce⟩, hchain.sound⟩
            · rw [← hform]
              exact hentry
            · rw [← hform]
              exact htype
            · rw [← hform]
              exact Nat.not_lt.1 hsize
          · refine List.pairwise_cons.2 ⟨fun later hlater => ?_, hchain.once⟩
            exact paths_empty honce
              (hnext.resolve_left (List.ne_nil_of_mem hlater))

theorem zeros_no_entry {entry : Entry} (h : entry.Sound) {rest : List UInt8}
    (hsame : List.replicate zeros 0 = entry.bytes ++ rest) : False := by
  have hfilled := h.filled
  rw [List.all_eq_false] at hfilled
  obtain ⟨byte, hbyte, hzero⟩ := hfilled
  have hmem : byte ∈ List.replicate zeros (0 : UInt8) := by
    rw [hsame, Entry.bytes]
    simp [hbyte]
  rw [List.eq_of_mem_replicate hmem] at hzero
  exact hzero rfl

theorem readEntries_zeros (h : block ≤ zeros) (pax : Option JsString)
    (output : List UInt8) :
    readEntries expectedName maximum pax (some output)
      (List.replicate zeros 0) = .ok output := by
  rw [readEntries.eq_def, dif_neg (by simpa using h)]
  simp

/-- The loop accepts exactly the archives that it should, but for how their
records are written. -/
theorem readEntries_iff {bytes : List UInt8} :
    readEntries expectedName maximum none none bytes = .ok content ↔
      ∃ archive : Archive, archive.bytes = bytes ∧
        archive.Sound expectedName maximum ∧ archive.file.body = content := by
  constructor
  · intro h
    obtain ⟨before, rest, rfl, hbefore, -, hstops, h⟩ := readEntries_skip h
    rcases readEntries_form h with ⟨hnone, -⟩ | ⟨file, rest, hfile, rfl⟩
    · cases hnone
    · rw [readEntries_entry _ _ hfile, if_neg (hstops file rest hfile rfl)] at h
      split at h
      · cases h
      · rename_i hmost
        split at h
        · cases h
        · rename_i hguard
          simp only [not_or, not_and_or, not_not] at hguard
          obtain ⟨hregular, hname, -, hleast⟩ := hguard
          obtain ⟨behind, rest, rfl, hbehind, -, hends, h⟩ := readEntries_skip h
          rcases readEntries_form h with ⟨hsame, hlong, hzeros⟩ |
            ⟨other, tail, hother, rfl⟩
          · refine ⟨⟨before, file, behind, rest.length⟩, ?_, ⟨hbefore, hfile,
              hregular, hname, ⟨?_, ?_⟩, hbehind, hlong⟩,
              Option.some.inj hsame⟩
            · rw [Archive.bytes, ← hzeros]
            · exact Nat.not_lt.1 hleast
            · exact Nat.not_lt.1 hmost
          · rw [readEntries_entry _ _ hother,
              if_neg (hends other tail hother rfl)] at h
            split at h
            · cases h
            · rw [if_pos (.inr (.inr (.inl rfl)))] at h
              cases h
  · rintro ⟨archive, rfl, h, rfl⟩
    have hregular : archive.file.type ≠ JsString.ofString "x" := by
      rcases h.regular with htype | htype
      · rw [htype]
        decide
      · rw [htype]
        decide
    rw [Archive.bytes, readEntries_headers h.before _ _ (.inr rfl),
      readEntries_entry _ _ h.file, if_neg hregular,
      if_neg (Nat.not_lt.2 h.size.2), if_neg,
      readEntries_headers h.behind _ _ (.inr rfl), readEntries_zeros h.zeros]
    simp only [not_or, not_and_or, not_not]
    exact ⟨h.regular, h.name, by simp, Nat.not_lt.2 h.size.1⟩

end Reading

end Allrice.LocalPythonAcceptance
