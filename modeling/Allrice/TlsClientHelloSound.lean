/-
What is let through is one complete ClientHello for the host, in whole records
with nothing behind them, and every shorter front of it is still pending.
-/
import Allrice.TlsClientHello

namespace Allrice.TlsClientHello

open ByteReader Splice Utf8Text
open Except (bind_eq_ok bind_eq_error)

structure Extension where
  type : Nat
  data : List UInt8

def Extension.bytes (extension : Extension) : List UInt8 :=
  u16Bytes extension.type ++ u16Bytes extension.data.length ++ extension.data

/-- A list of one host name. -/
def serverNameData (hostname : JsString) : List UInt8 :=
  u16Bytes (3 + (hostBytes hostname).length) ++ u8Bytes 0 ++
    u16Bytes (hostBytes hostname).length ++ hostBytes hostname

/-- The version and the random bytes stand in `random`. -/
structure ClientHello where
  random : List UInt8
  session : List UInt8
  ciphers : List UInt8
  compression : List UInt8
  extensions : List Extension

namespace ClientHello

def extensionBytes (hello : ClientHello) : List UInt8 :=
  hello.extensions.flatMap Extension.bytes

def payload (hello : ClientHello) : List UInt8 :=
  hello.random ++ (u8Bytes hello.session.length ++ (hello.session ++
    (u16Bytes hello.ciphers.length ++ (hello.ciphers ++
      (u8Bytes hello.compression.length ++ (hello.compression ++
        (u16Bytes hello.extensionBytes.length ++ hello.extensionBytes)))))))

def bytes (hello : ClientHello) : List UInt8 :=
  u8Bytes 1 ++ (u24Bytes hello.payload.length ++ hello.payload)

/-- The lengths fit their fields, no extension is there twice or encrypts the
message, and there is one server name, that of the host. -/
structure For (hello : ClientHello) (hostname : JsString) : Prop where
  random : hello.random.length = 34
  session : hello.session.length < 256
  ciphers : 2 ≤ hello.ciphers.length ∧ hello.ciphers.length < 65536 ∧
    hello.ciphers.length % 2 = 0
  compression : hello.compression.length < 256
  size : hello.extensionBytes.length < 65536
  distinct : (hello.extensions.map Extension.type).Nodup
  fields : ∀ extension ∈ hello.extensions,
    extension.type < 65536 ∧ extension.data.length < 65536
  notEncrypted : ∀ extension ∈ hello.extensions, extension.type ≠ 0xfe0d
  named : ∃ extension ∈ hello.extensions, extension.type = 0
  names : ∀ extension ∈ hello.extensions, extension.type = 0 →
    extension.data = serverNameData hostname

end ClientHello

structure Record where
  minor : Nat
  fragment : List UInt8

namespace Record

def bytes (record : Record) : List UInt8 :=
  u8Bytes 22 ++ (u8Bytes 3 ++ (u8Bytes record.minor ++
    (u16Bytes record.fragment.length ++ record.fragment)))

structure Fits (record : Record) : Prop where
  minor : record.minor ≤ 3
  some : record.fragment ≠ []
  most : record.fragment.length ≤ 18432

end Record

/-- One complete ClientHello for the host, spread over whole records. -/
def IsClientHello (hostname : JsString) (bytes : List UInt8) : Prop :=
  ∃ (records : List Record) (hello : ClientHello),
    bytes = records.flatMap Record.bytes ∧
      records.flatMap Record.fragment = hello.bytes ∧
        (∀ record ∈ records, record.Fits) ∧ hello.For hostname

section Body

variable {body : List UInt8} {hostname : JsString} {p : Nat} {count n : Nat}
  {u : Unit} {seen : List Nat}

theorem take_eq_ok : take body p count = .ok u ↔ p + count ≤ body.length := by
  rw [take, refuse_eq_ok, Nat.not_lt]

theorem u8_eq_ok (h : u8 body p = .ok n) :
    n < 256 ∧ p + 1 ≤ body.length ∧
      body.drop p = u8Bytes n ++ body.drop (p + 1) := by
  obtain ⟨_, htake, hread⟩ := bind_eq_ok.1 h
  obtain ⟨hn, hdrop⟩ := byteAt_eq_ok hread
  exact ⟨hn, take_eq_ok.1 htake, hdrop⟩

theorem u16_eq_ok (h : u16 body p = .ok n) :
    n < 65536 ∧ p + 2 ≤ body.length ∧
      body.drop p = u16Bytes n ++ body.drop (p + 2) := by
  obtain ⟨_, htake, hread⟩ := bind_eq_ok.1 h
  obtain ⟨hn, hdrop⟩ := readUInt16BE_eq_ok hread
  exact ⟨hn, take_eq_ok.1 htake, hdrop⟩

/-- A counted part: the bytes are there, and as many as counted. -/
theorem slice_eq (h : take body p count = .ok u) :
    (slice body p count).length = count ∧
      body.drop p = slice body p count ++ body.drop (p + count) :=
  ⟨slice_length (take_eq_ok.1 h), drop_eq_slice_append body p count⟩

theorem serverName_eq_ok {length : Nat} {name : JsString}
    (h : serverName body hostname p length = .ok name) :
    body.drop p = serverNameData hostname ++ body.drop (p + length) ∧
      (serverNameData hostname).length = length ∧
        name = asciiText (hostBytes hostname) := by
  obtain ⟨listLength, hlist, h⟩ := bind_eq_ok.1 h
  obtain ⟨_, hsame, h⟩ := bind_eq_ok.1 h
  obtain ⟨kind, hkind, h⟩ := bind_eq_ok.1 h
  obtain ⟨_, hzero, h⟩ := bind_eq_ok.1 h
  obtain ⟨nameLength, hname, h⟩ := bind_eq_ok.1 h
  obtain ⟨_, htake, h⟩ := bind_eq_ok.1 h
  obtain ⟨_, hend, h⟩ := bind_eq_ok.1 h
  obtain rfl := Except.ok.inj h
  simp only [refuse_eq_ok, not_not, not_or] at hsame hzero hend
  obtain ⟨hstop, hhost⟩ := hend
  obtain ⟨hcount, hslice⟩ := slice_eq htake
  obtain ⟨-, -, hlist⟩ := u16_eq_ok hlist
  obtain ⟨-, -, hkind⟩ := u8_eq_ok hkind
  obtain ⟨-, -, hname⟩ := u16_eq_ok hname
  rw [hhost] at hcount hslice
  have hlength : length = 5 + (hostBytes hostname).length := by omega
  have hnumber : listLength = 3 + (hostBytes hostname).length := by omega
  refine ⟨?_, ?_, by rw [hhost]⟩
  · rw [hlist, hkind, hname, hslice, hzero, hnumber, ← hcount, serverNameData,
      hlength, ← Nat.add_assoc]
    simp only [List.append_assoc]
  · rw [hlength, serverNameData]
    simp only [List.length_append, u16Bytes_length, u8Bytes_length]

/-- What the extensions behind a place are. -/
structure Read (body : List UInt8) (hostname : JsString) (p : Nat)
    (seen : List Nat) (items : List Extension) : Prop where
  drop : body.drop p = items.flatMap Extension.bytes
  distinct : (items.map Extension.type).Nodup
  fresh : ∀ item ∈ items, item.type ∉ seen
  fields : ∀ item ∈ items, item.type < 65536 ∧ item.data.length < 65536
  notEncrypted : ∀ item ∈ items, item.type ≠ 0xfe0d
  names : ∀ item ∈ items, item.type = 0 → item.data = serverNameData hostname

theorem Read.cons {items : List Extension} {item : Extension}
    (h : Read body hostname (p + 4 + item.data.length) (item.type :: seen)
      items)
    (hdrop : body.drop p = item.bytes ++ body.drop (p + 4 + item.data.length))
    (hfresh : item.type ∉ seen)
    (hfields : item.type < 65536 ∧ item.data.length < 65536)
    (hplain : item.type ≠ 0xfe0d)
    (hname : item.type = 0 → item.data = serverNameData hostname) :
    Read body hostname p seen (item :: items) where
  drop := by rw [hdrop, h.drop, List.flatMap_cons]
  distinct := by
    rw [List.map_cons, List.nodup_cons]
    refine ⟨fun hmem => ?_, h.distinct⟩
    obtain ⟨other, hother, hsame⟩ := List.mem_map.1 hmem
    exact h.fresh other hother (hsame ▸ List.mem_cons_self)
  fresh := by
    rw [List.forall_mem_cons]
    exact ⟨hfresh, fun other hother hseen =>
      h.fresh other hother (List.mem_cons_of_mem _ hseen)⟩
  fields := List.forall_mem_cons.2 ⟨hfields, h.fields⟩
  notEncrypted := List.forall_mem_cons.2 ⟨hplain, h.notEncrypted⟩
  names := List.forall_mem_cons.2 ⟨hname, h.names⟩

/-- The loop reads all extensions, and its answer is the name of the last server
name extension. -/
theorem extensions_eq_ok {sni result : Option JsString} (hp : p ≤ body.length)
    (h : extensions body hostname p seen sni = .ok result) :
    ∃ items, Read body hostname p seen items ∧
      ((∃ item ∈ items, item.type = 0) ∨ result = sni) := by
  induction hn : body.length - p using Nat.strong_induction_on
    generalizing p seen sni with
  | _ n ih =>
  rw [extensions] at h
  split at h
  · rename_i hmore
    obtain ⟨type, htype, h⟩ := bind_eq_ok.1 h
    obtain ⟨length, hlength, h⟩ := bind_eq_ok.1 h
    obtain ⟨_, hchecked, h⟩ := bind_eq_ok.1 h
    simp only [refuse_eq_ok, not_or, Nat.not_lt] at hchecked
    obtain ⟨hstop, hfresh, hplain⟩ := hchecked
    obtain ⟨htype, -, hdrop⟩ := u16_eq_ok htype
    obtain ⟨hlength, -, hdrop'⟩ := u16_eq_ok hlength
    have hdata : (slice body (p + 4) length).length = length :=
      slice_length hstop
    have hitem : body.drop p =
        (⟨type, slice body (p + 4) length⟩ : Extension).bytes ++
          body.drop (p + 4 + length) := by
      rw [hdrop, hdrop', drop_eq_slice_append body (p + 2 + 2) length,
        Extension.bytes, hdata]
      simp only [List.append_assoc]
    split at h
    · rename_i hzero
      obtain ⟨name, hname, h⟩ := bind_eq_ok.1 h
      obtain ⟨items, hitems, -⟩ := ih _ (by omega) hstop h rfl
      obtain ⟨hshown, hcount, -⟩ := serverName_eq_ok hname
      have hsame : slice body (p + 4) length = serverNameData hostname := by
        rw [slice, hshown, ← hcount, List.take_left]
      refine ⟨⟨type, slice body (p + 4) length⟩ :: items, ?_, .inl
        ⟨_, List.mem_cons_self, hzero⟩⟩
      refine Read.cons (by rw [hdata]; exact hitems) (by rw [hdata]; exact hitem)
        hfresh ⟨htype, by rw [hdata]; exact hlength⟩ hplain fun _ => hsame
    · rename_i hother
      obtain ⟨items, hitems, hresult⟩ := ih _ (by omega) hstop h rfl
      refine ⟨⟨type, slice body (p + 4) length⟩ :: items, ?_, ?_⟩
      · refine Read.cons (by rw [hdata]; exact hitems)
          (by rw [hdata]; exact hitem) hfresh
          ⟨htype, by rw [hdata]; exact hlength⟩ hplain fun hzero =>
            absurd hzero hother
      · rcases hresult with ⟨item, hmem, hzero⟩ | hsame
        · exact .inl ⟨item, List.mem_cons_of_mem _ hmem, hzero⟩
        · exact .inr hsame
  · rename_i hend
    obtain rfl := Except.ok.inj h
    refine ⟨[], ⟨?_, List.nodup_nil, ?_, ?_, ?_, ?_⟩, .inr rfl⟩
    · rw [List.drop_eq_nil_iff.2 (Nat.not_lt.1 hend), List.flatMap_nil]
    all_goals
      intro item hitem
      exact absurd hitem List.not_mem_nil

/-- A checked body is a ClientHello behind its header. -/
theorem checkBody_eq_ok {verdict : Verdict}
    (h : checkBody body hostname = .ok verdict) :
    ∃ hello : ClientHello, body.drop 4 = hello.payload ∧
      hello.For hostname := by
  obtain ⟨_, hrandom, h⟩ := bind_eq_ok.1 h
  obtain ⟨session, hsession, h⟩ := bind_eq_ok.1 h
  obtain ⟨_, hsessionFits, h⟩ := bind_eq_ok.1 h
  obtain ⟨ciphers, hciphers, h⟩ := bind_eq_ok.1 h
  obtain ⟨_, heven, h⟩ := bind_eq_ok.1 h
  obtain ⟨_, hciphersFit, h⟩ := bind_eq_ok.1 h
  obtain ⟨compression, hcompression, h⟩ := bind_eq_ok.1 h
  obtain ⟨_, hcompressionFits, h⟩ := bind_eq_ok.1 h
  obtain ⟨size, hsize, h⟩ := bind_eq_ok.1 h
  obtain ⟨_, hrest, h⟩ := bind_eq_ok.1 h
  obtain ⟨sni, hextensions, h⟩ := bind_eq_ok.1 h
  obtain ⟨_, hsame, -⟩ := bind_eq_ok.1 h
  simp only [refuse_eq_ok, not_or, not_not, Nat.not_lt] at heven hrest hsame
  obtain ⟨hrandom, hdropRandom⟩ := slice_eq hrandom
  obtain ⟨hsession, -, hdropSession⟩ := u8_eq_ok hsession
  obtain ⟨hsessionLength, hdropId⟩ := slice_eq hsessionFits
  obtain ⟨hciphers, -, hdropCiphers⟩ := u16_eq_ok hciphers
  obtain ⟨hciphersLength, hdropList⟩ := slice_eq hciphersFit
  obtain ⟨hcompression, -, hdropCompression⟩ := u8_eq_ok hcompression
  obtain ⟨hcompressionLength, hdropMethods⟩ := slice_eq hcompressionFits
  obtain ⟨hsize, hfits, hdropSize⟩ := u16_eq_ok hsize
  obtain ⟨items, hread, hnamed⟩ := extensions_eq_ok hfits hextensions
  have hlength : (items.flatMap Extension.bytes).length = size := by
    have hdrop := congrArg List.length hread.drop
    rw [List.length_drop] at hdrop
    omega
  refine ⟨⟨slice body 4 34, slice body 39 session,
    slice body (39 + session + 2) ciphers,
    slice body (39 + session + 2 + ciphers + 1) compression, items⟩, ?_, ?_⟩
  · simp only [ClientHello.payload, ClientHello.extensionBytes, hlength,
      hsessionLength, hciphersLength, hcompressionLength]
    rw [hdropRandom, hdropSession, hdropId, hdropCiphers, hdropList,
      hdropCompression, hdropMethods, hdropSize, hread.drop]
  · refine ⟨hrandom, ?_, ?_, ?_, ?_, hread.distinct, hread.fields,
      hread.notEncrypted, ?_, hread.names⟩
    · simp only [hsessionLength, hsession]
    · simp only [hciphersLength]
      exact ⟨heven.1, hciphers, heven.2⟩
    · simp only [hcompressionLength, hcompression]
    · simp only [ClientHello.extensionBytes, hlength, hsize]
    · rcases hnamed with hnamed | hnone
      · exact hnamed
      · rw [hsame] at hnone
        cases hnone

end Body

theorem recordLength_eq_ok {bytes : List UInt8} {offset length : Nat}
    (h : recordLength bytes offset = .ok length) :
    1 ≤ length ∧ length ≤ 18432 ∧ ∃ minor ≤ 3,
      bytes.drop offset = u8Bytes 22 ++ (u8Bytes 3 ++ (u8Bytes minor ++
        (u16Bytes length ++ bytes.drop (offset + 5)))) := by
  obtain ⟨kind, hkind, h⟩ := bind_eq_ok.1 h
  obtain ⟨major, hmajor, h⟩ := bind_eq_ok.1 h
  obtain ⟨minor, hminor, h⟩ := bind_eq_ok.1 h
  obtain ⟨_, hversion, h⟩ := bind_eq_ok.1 h
  obtain ⟨found, hfound, h⟩ := bind_eq_ok.1 h
  obtain ⟨_, hbounds, h⟩ := bind_eq_ok.1 h
  obtain rfl := Except.ok.inj h
  simp only [refuse_eq_ok, not_or, not_not, Nat.not_lt] at hversion hbounds
  obtain ⟨-, hkind⟩ := byteAt_eq_ok hkind
  obtain ⟨-, hmajor⟩ := byteAt_eq_ok hmajor
  obtain ⟨-, hminor⟩ := byteAt_eq_ok hminor
  obtain ⟨-, hfound⟩ := readUInt16BE_eq_ok hfound
  refine ⟨by omega, hbounds.1, minor, hversion.2.2, ?_⟩
  rw [hkind, hmajor, hminor, hfound, hversion.1, hversion.2.1]

theorem helloLength_eq_ok {body : List UInt8} {expected : Nat}
    (h : helloLength body = .ok expected) :
    ∃ size, expected = size + 4 ∧
      body = u8Bytes 1 ++ (u24Bytes size ++ body.drop 4) := by
  obtain ⟨kind, hkind, h⟩ := bind_eq_ok.1 h
  obtain ⟨size, hsize, h⟩ := bind_eq_ok.1 h
  obtain ⟨_, hchecked, h⟩ := bind_eq_ok.1 h
  obtain rfl := Except.ok.inj h
  simp only [refuse_eq_ok, not_or, not_not, Nat.not_lt] at hchecked
  obtain ⟨-, hkind⟩ := byteAt_eq_ok hkind
  have hsize := readUInt24BE_eq_ok hsize
  refine ⟨size, rfl, ?_⟩
  rw [List.drop_zero] at hkind
  conv_lhs => rw [hkind, hsize, hchecked.1]

section Records

variable {hostname : JsString} {bytes : List UInt8} {offset k : Nat}
  {body : List UInt8}

/-- The loop over the records reads what is left in whole records, and what they
carry ends with the body of the message. -/
theorem records_eq_valid (h : records hostname bytes offset body = .ok .valid) :
    ∃ (found : List Record) (hello : ClientHello),
      bytes.drop offset = found.flatMap Record.bytes ∧
        body ++ found.flatMap Record.fragment = hello.bytes ∧
          (∀ record ∈ found, record.Fits) ∧ hello.For hostname := by
  induction hn : bytes.length - offset using Nat.strong_induction_on
    generalizing offset body with
  | _ n ih =>
  rw [records] at h
  split at h
  · rename_i hheader
    obtain ⟨length, hlength, h⟩ := bind_eq_ok.1 h
    obtain ⟨hsome, hmost, minor, hminor, hdrop⟩ := recordLength_eq_ok hlength
    split at h
    · cases h
    · rename_i hwhole
      have hfragment : (slice bytes (offset + 5) length).length = length :=
        slice_length (Nat.not_lt.1 hwhole)
      have hfits : (⟨minor, slice bytes (offset + 5) length⟩ : Record).Fits := by
        refine ⟨hminor, ?_, by rw [hfragment]; exact hmost⟩
        intro hnil
        simp only at hnil
        rw [hnil, List.length_nil] at hfragment
        omega
      have hrecord : bytes.drop offset =
          (⟨minor, slice bytes (offset + 5) length⟩ : Record).bytes ++
            bytes.drop (offset + 5 + length) := by
        rw [hdrop, drop_eq_slice_append bytes (offset + 5) length, Record.bytes,
          hfragment]
        simp only [List.append_assoc]
      -- The records that follow, behind this one.
      have hmore : records hostname bytes (offset + 5 + length)
          (body ++ slice bytes (offset + 5) length) = .ok .valid →
          ∃ (found : List Record) (hello : ClientHello),
            bytes.drop offset = found.flatMap Record.bytes ∧
              body ++ found.flatMap Record.fragment = hello.bytes ∧
                (∀ record ∈ found, record.Fits) ∧ hello.For hostname := by
        intro hnext
        obtain ⟨found, hello, hfound, hcarried, hall, hfor⟩ :=
          ih _ (by omega) hnext rfl
        refine ⟨⟨minor, slice bytes (offset + 5) length⟩ :: found, hello, ?_, ?_,
          List.forall_mem_cons.2 ⟨hfits, hall⟩, hfor⟩
        · rw [hrecord, hfound, List.flatMap_cons]
        · rw [List.flatMap_cons, ← List.append_assoc]
          exact hcarried
      dsimp only at h
      split at h
      · exact hmore h
      · obtain ⟨expected, hexpected, h⟩ := bind_eq_ok.1 h
        split at h
        · exact hmore h
        · obtain ⟨_, hexact, h⟩ := bind_eq_ok.1 h
          simp only [refuse_eq_ok, not_or, not_not] at hexact
          obtain ⟨hello, hpayload, hfor⟩ := checkBody_eq_ok h
          obtain ⟨size, hsize, hbody⟩ := helloLength_eq_ok hexpected
          have hcount : hello.payload.length = size := by
            rw [← hpayload, List.length_drop]
            omega
          refine ⟨[⟨minor, slice bytes (offset + 5) length⟩], hello, ?_, ?_,
            List.forall_mem_cons.2 ⟨hfits, fun _ hnil =>
              absurd hnil List.not_mem_nil⟩, hfor⟩
          · rw [hrecord, hexact.2, List.drop_length]
            simp
          · rw [List.flatMap_singleton, hbody, ClientHello.bytes, hcount,
              hpayload]
  · cases h

theorem recordLength_take (h : offset + 5 ≤ k) :
    recordLength (bytes.take k) offset = recordLength bytes offset := by
  simp only [recordLength, byteAt_take (show offset < k by omega),
    byteAt_take (show offset + 1 < k by omega),
    byteAt_take (show offset + 2 < k by omega),
    readUInt16BE_take (show offset + 3 + 2 ≤ k by omega)]

/-- The loop stays pending on every shorter front of what it accepts. -/
theorem records_take (hk : k < bytes.length) (hoffset : offset ≤ k)
    (h : records hostname bytes offset body = .ok .valid) :
    records hostname (bytes.take k) offset body = .ok .pending := by
  induction hn : bytes.length - offset using Nat.strong_induction_on
    generalizing offset body with
  | _ n ih =>
  have hlength : (bytes.take k).length = k := by
    rw [List.length_take]
    omega
  rw [records] at h ⊢
  rw [hlength]
  split at h
  · obtain ⟨length, hrecord, h⟩ := bind_eq_ok.1 h
    split at h
    · cases h
    · rename_i hwhole
      by_cases hheader : offset + 5 ≤ k
      · rw [if_pos hheader, recordLength_take hheader, hrecord]
        change (if k < offset + 5 + length then _ else _) = _
        by_cases hcut : k < offset + 5 + length
        · rw [if_pos hcut]
          rfl
        · rw [if_neg hcut]
          dsimp only at h ⊢
          rw [slice_take bytes (Nat.not_lt.1 hcut)]
          have hmore : ∀ whole, records hostname bytes (offset + 5 + length)
              whole = .ok .valid → records hostname (bytes.take k)
                (offset + 5 + length) whole = .ok .pending := fun whole hnext =>
            ih _ (by omega) (Nat.not_lt.1 hcut) hnext rfl
          split at h
          · rename_i hshort
            rw [if_pos hshort]
            exact hmore _ h
          · rename_i hlong
            rw [if_neg hlong]
            obtain ⟨expected, hexpected, h⟩ := bind_eq_ok.1 h
            rw [hexpected]
            split at h
            · rename_i hpart
              change (if _ < expected then _ else _) = _
              rw [if_pos hpart]
              exact hmore _ h
            · -- The last record ends where the whole input ends.
              obtain ⟨_, hexact, -⟩ := bind_eq_ok.1 h
              simp only [refuse_eq_ok, not_or, not_not] at hexact
              omega
      · rw [if_neg hheader]
        rfl
  · cases h

end Records

/-- No read past an end. -/
def Within {α : Type} (x : Except Fault α) : Prop := x ≠ .error .outOfRange

variable {α : Type}

theorem Within.bind {β : Type} {x : Except Fault α} {f : α → Except Fault β}
    (hx : Within x) (hf : ∀ a, x = .ok a → Within (f a)) :
    Within (x >>= f) := by
  intro h
  rcases bind_eq_error.1 h with herror | ⟨a, ha, herror⟩
  · exact hx herror
  · exact hf a ha herror

theorem Within.ok (a : α) : Within (.ok a) := nofun

theorem refuse_within (p : Prop) [Decidable p] :
    Within (refuse p Fault.protocol) := by
  intro h
  cases (refuse_eq_error.1 h).2

section Within

variable {body : List UInt8} {hostname : JsString}

theorem take_within (p count : Nat) : Within (take body p count) :=
  refuse_within _

theorem u8_within (p : Nat) : Within (u8 body p) := by
  refine (take_within p 1).bind fun _ htake => ?_
  obtain ⟨n, hn⟩ := byteAt_within Fault.outOfRange
    (show p < body.length from take_eq_ok.1 htake)
  rw [hn]
  exact .ok n

theorem u16_within (p : Nat) : Within (u16 body p) := by
  refine (take_within p 2).bind fun _ htake => ?_
  obtain ⟨n, hn⟩ := readUInt16BE_within Fault.outOfRange (take_eq_ok.1 htake)
  rw [hn]
  exact .ok n

theorem serverName_within (p length : Nat) :
    Within (serverName body hostname p length) := by
  refine (u16_within p).bind fun listLength _ => ?_
  refine (refuse_within _).bind fun _ _ => ?_
  refine (u8_within (p + 2)).bind fun kind _ => ?_
  refine (refuse_within _).bind fun _ _ => ?_
  refine (u16_within (p + 3)).bind fun nameLength _ => ?_
  refine (take_within (p + 5) nameLength).bind fun _ _ => ?_
  refine (refuse_within _).bind fun _ _ => ?_
  exact .ok _

theorem extensions_within (p : Nat) (seen : List Nat) (sni : Option JsString) :
    Within (extensions body hostname p seen sni) := by
  induction hn : body.length - p using Nat.strong_induction_on
    generalizing p seen sni with
  | _ n ih =>
  rw [extensions]
  split
  · refine (u16_within p).bind fun type _ => ?_
    refine (u16_within (p + 2)).bind fun length _ => ?_
    refine (refuse_within _).bind fun _ _ => ?_
    split
    · refine (serverName_within (p + 4) length).bind fun name _ => ?_
      exact ih _ (by omega) _ _ _ rfl
    · exact ih _ (by omega) _ _ _ rfl
  · exact .ok sni

theorem checkBody_within : Within (checkBody body hostname) := by
  refine (take_within 4 34).bind fun _ _ => ?_
  refine (u8_within 38).bind fun session _ => ?_
  refine (take_within 39 session).bind fun _ _ => ?_
  refine (u16_within (39 + session)).bind fun ciphers _ => ?_
  refine (refuse_within _).bind fun _ _ => ?_
  refine (take_within (39 + session + 2) ciphers).bind fun _ _ => ?_
  refine (u8_within (39 + session + 2 + ciphers)).bind fun compression _ => ?_
  refine (take_within (39 + session + 2 + ciphers + 1) compression).bind
    fun _ _ => ?_
  refine (u16_within (39 + session + 2 + ciphers + 1 + compression)).bind
    fun size _ => ?_
  refine (refuse_within _).bind fun _ _ => ?_
  refine (extensions_within _ [] none).bind fun sni _ => ?_
  refine (refuse_within _).bind fun _ _ => ?_
  exact .ok _

theorem byteAt_safe {bytes : List UInt8} {i : Nat} (h : i < bytes.length) :
    Within (byteAt Fault.outOfRange bytes i) := by
  obtain ⟨n, hn⟩ := byteAt_within Fault.outOfRange h
  rw [hn]
  exact .ok n

theorem recordLength_within {bytes : List UInt8} {offset : Nat}
    (h : offset + 5 ≤ bytes.length) : Within (recordLength bytes offset) := by
  refine (byteAt_safe (by omega)).bind fun kind _ => ?_
  refine (byteAt_safe (by omega)).bind fun major _ => ?_
  refine (byteAt_safe (by omega)).bind fun minor _ => ?_
  refine (refuse_within _).bind fun _ _ => ?_
  obtain ⟨n, hn⟩ := readUInt16BE_within Fault.outOfRange
    (show offset + 3 + 2 ≤ bytes.length by omega)
  rw [hn]
  refine (Within.ok n).bind fun length _ => ?_
  refine (refuse_within _).bind fun _ _ => ?_
  exact .ok _

theorem helloLength_within {whole : List UInt8} (h : ¬whole.length < 4) :
    Within (helloLength whole) := by
  refine (byteAt_safe (by omega)).bind fun kind _ => ?_
  obtain ⟨n, hn⟩ := readUInt24BE_within Fault.outOfRange
    (show 1 + 3 ≤ whole.length by omega)
  rw [hn]
  refine (Within.ok n).bind fun size _ => ?_
  refine (refuse_within _).bind fun _ _ => ?_
  exact .ok _

theorem records_within (bytes : List UInt8) (offset : Nat)
    (body : List UInt8) : Within (records hostname bytes offset body) := by
  induction hn : bytes.length - offset using Nat.strong_induction_on
    generalizing offset body with
  | _ n ih =>
  rw [records]
  split
  · rename_i hheader
    refine (recordLength_within hheader).bind fun length _ => ?_
    split
    · exact .ok _
    · dsimp only
      split
      · exact ih _ (by omega) _ _ rfl
      · rename_i hlong
        refine (helloLength_within hlong).bind fun expected _ => ?_
        split
        · exact ih _ (by omega) _ _ rfl
        · refine (refuse_within _).bind fun _ _ => ?_
          exact checkBody_within
  · exact .ok _

end Within

/-- Every buffer is answered without a read past its end; what is valid is one
complete ClientHello for the host; and its shorter fronts are pending. -/
theorem client_hello_admission (bytes : List UInt8) (hostname : JsString) :
    sandboxTlsClientHello bytes hostname ≠ .error .outOfRange ∧
      (sandboxTlsClientHello bytes hostname = .ok .valid →
        IsClientHello hostname bytes ∧
          ∀ front, front <+: bytes → front ≠ bytes →
            sandboxTlsClientHello front hostname = .ok .pending) := by
  constructor
  · change Within _
    unfold sandboxTlsClientHello
    split
    · nofun
    · split
      · exact .ok _
      · exact records_within bytes 0 []
  · intro hvalid
    unfold sandboxTlsClientHello at hvalid
    split at hvalid
    · cases hvalid
    · rename_i hmost
      split at hvalid
      · cases hvalid
      · constructor
        · obtain ⟨found, hello, hfound, hcarried, hall, hfor⟩ :=
            records_eq_valid hvalid
          exact ⟨found, hello, hfound, hcarried, hall, hfor⟩
        · intro front hfront hne
          have hlt : front.length < bytes.length :=
            Nat.lt_of_le_of_ne hfront.length_le fun hsame =>
              hne (hfront.eq_of_length hsame)
          have htake := records_take hlt (Nat.zero_le _) hvalid
          rw [← List.prefix_iff_eq_take.1 hfront] at htake
          unfold sandboxTlsClientHello
          rw [if_neg (by omega)]
          split
          · rfl
          · exact htake

namespace TlsClientHelloWitness

def host : JsString := JsString.ofString "a.b"

def hello : ClientHello :=
  ⟨List.replicate 34 3, [], [0x13, 1], [0], [⟨0, serverNameData host⟩]⟩

/-- One record with the message. -/
def input : List UInt8 := (⟨1, hello.bytes⟩ : Record).bytes

theorem input_valid : sandboxTlsClientHello input host = .ok .valid := by
  cbv

/-- The message is let through, and without its last byte it is pending. -/
theorem client_hello_admission_input :
    sandboxTlsClientHello (input.take 10) host = .ok .pending :=
  ((client_hello_admission input host).2 input_valid).2 _
    (List.take_prefix 10 input) (by decide)

end TlsClientHelloWitness

end Allrice.TlsClientHello
