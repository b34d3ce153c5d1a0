/-
The first bytes that a sandbox sends to a remote.  They are held back until they
make up one complete ClientHello for the host of the lease; the lengths in them
are chosen by the sandbox, so every read is measured first.
-/
import Allrice.ByteReader
import Allrice.Utf8Text

namespace Allrice.TlsClientHello

open ByteReader Splice Utf8Text

/-- `SANDBOX_NETWORK_PROTOCOL`, and a read that no check has measured. -/
inductive Fault
  | protocol
  | outOfRange
deriving DecidableEq

inductive Verdict
  | pending
  | valid
deriving DecidableEq

/-- `Buffer.from(hostname, 'ascii')`. -/
def hostBytes (hostname : JsString) : List UInt8 :=
  hostname.map fun unit => UInt8.ofNat unit.toNat

section Body

variable (body : List UInt8)

/-- Move over some bytes. -/
def take (p count : Nat) : Except Fault Unit :=
  refuse (body.length < p + count) .protocol

/-- `body[take(1)]`. -/
def u8 (p : Nat) : Except Fault Nat := do
  take body p 1
  byteAt .outOfRange body p

/-- `body.readUInt16BE(take(2))`. -/
def u16 (p : Nat) : Except Fault Nat := do
  take body p 2
  readUInt16BE .outOfRange body p

/-- The name in a server name extension of this length. -/
def serverName (hostname : JsString) (p length : Nat) :
    Except Fault JsString := do
  let listLength ← u16 body p
  refuse ((listLength : Int) ≠ length - 2) .protocol
  let kind ← u8 body (p + 2)
  refuse (kind ≠ 0) .protocol
  let nameLength ← u16 body (p + 3)
  take body (p + 5) nameLength
  let name := slice body (p + 5) nameLength
  refuse (p + 5 + nameLength ≠ p + length ∨ name ≠ hostBytes hostname)
    .protocol
  return asciiText name

/-- The loop over the extensions. -/
def extensions (hostname : JsString) (p : Nat) (seen : List Nat)
    (sni : Option JsString) : Except Fault (Option JsString) :=
  if p < body.length then do
    let type ← u16 body p
    let length ← u16 body (p + 2)
    let stop := p + 4 + length
    refuse (body.length < stop ∨ type ∈ seen ∨ type = 0xfe0d) .protocol
    if type = 0 then do
      let name ← serverName body hostname (p + 4) length
      extensions hostname stop (type :: seen) (some name)
    else extensions hostname stop (type :: seen) sni
  else return sni
termination_by body.length - p

/-- What follows the length of the body. -/
def checkBody (hostname : JsString) : Except Fault Verdict := do
  take body 4 34
  let session ← u8 body 38
  take body 39 session
  let p := 39 + session
  let ciphers ← u16 body p
  refuse (ciphers < 2 ∨ ciphers % 2 ≠ 0) .protocol
  take body (p + 2) ciphers
  let p := p + 2 + ciphers
  let compression ← u8 body p
  take body (p + 1) compression
  let p := p + 1 + compression
  let extensionSize ← u16 body p
  refuse (p + 2 + extensionSize ≠ body.length) .protocol
  let sni ← extensions body hostname (p + 2) [] none
  refuse (sni ≠ some hostname) .protocol
  return .valid

end Body

/-- The header of a record: what its length is. -/
def recordLength (bytes : List UInt8) (offset : Nat) : Except Fault Nat := do
  let kind ← byteAt .outOfRange bytes offset
  let major ← byteAt .outOfRange bytes (offset + 1)
  let minor ← byteAt .outOfRange bytes (offset + 2)
  refuse (kind ≠ 22 ∨ major ≠ 3 ∨ 3 < minor) .protocol
  let length ← readUInt16BE .outOfRange bytes (offset + 3)
  refuse (18432 < length ∨ length = 0) .protocol
  return length

/-- The header of a ClientHello: how long it is with its header. -/
def helloLength (body : List UInt8) : Except Fault Nat := do
  let kind ← byteAt .outOfRange body 0
  let size ← readUInt24BE .outOfRange body 1
  refuse (kind ≠ 1 ∨ 60000 < size) .protocol
  return size + 4

/-- The loop over the records; `body` holds what the records before carried. -/
def records (hostname : JsString) (bytes : List UInt8) (offset : Nat)
    (body : List UInt8) : Except Fault Verdict :=
  if offset + 5 ≤ bytes.length then do
    let length ← recordLength bytes offset
    if bytes.length < offset + 5 + length then return .pending
    else do
      let next := offset + 5 + length
      let whole := body ++ slice bytes (offset + 5) length
      if whole.length < 4 then records hostname bytes next whole
      else do
        let expected ← helloLength whole
        if whole.length < expected then records hostname bytes next whole
        else do
          refuse (whole.length ≠ expected ∨ next ≠ bytes.length) .protocol
          checkBody whole hostname
  else return .pending
termination_by bytes.length - offset

def sandboxTlsClientHello (bytes : List UInt8) (hostname : JsString) :
    Except Fault Verdict :=
  if 65536 < bytes.length then .error .protocol
  else if bytes.length < 5 then .ok .pending
  else records hostname bytes 0 []

end Allrice.TlsClientHello
