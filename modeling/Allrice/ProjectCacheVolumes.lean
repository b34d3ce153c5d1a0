/-
Room for one more cache volume.  The daemon's volumes are visited by age, and
those that no container uses are deleted while a limit is exceeded that they
count towards.  The totals are kept up to date on the way.
-/
import Allrice.JsNumber

namespace Allrice.ProjectCache

open Rounding

def volumeBytes : Int := 512000000

def volumeFiles : Int := 8

def perVolumeBytes : Int := 128000000

def webDevelopmentBytes : Int := 512000000

def poolBytes : Int := 1024000000

inductive Profile
  | standard
  | webDevelopment
deriving DecidableEq

structure UsageData where
  size : Int
  refCount : Int
deriving DecidableEq

/-- A volume as the daemon describes it; `options` are the names of its
options, and the two labels are those that are read here. -/
structure Volume where
  name : JsString
  driver : JsString
  options : List JsString
  cacheLabel : Option JsString
  profileLabel : Option JsString
  createdAt : Option JsString
  usage : Option UsageData
deriving DecidableEq

/-- What `/system/df` reports: a volume's name is its key. -/
structure Measured where
  volumes : List Volume
  unique : (volumes.map Volume.name).Nodup

structure Request where
  name : JsString
  profile : Profile

inductive CacheError
  | untrusted
  | limit
  | daemon
deriving DecidableEq

/-- How the daemon answers `GET` and `DELETE` of a volume. -/
structure Daemon where
  inspect : JsString → Option Volume
  remove : JsString → Bool

/-- `Date.parse` and `localeCompare`. -/
structure Clock where
  dateParse : JsString → Option Int
  localeCompare : JsString → JsString → Ordering

/-- The double that stands for a whole number. -/
def double (n : Int) : Int :=
  if n < 0 then -(roundUnits n.natAbs 1 : Int) else roundUnits n.natAbs 1

def text (literal : String) : JsString := JsString.ofString literal

def cachePrefix : JsString := text "allrice-project-cache-"

/-- `[a-f0-9]`. -/
def isHex (unit : UInt16) : Bool :=
  (0x30 ≤ unit.toNat && unit.toNat ≤ 0x39) ||
    (0x61 ≤ unit.toNat && unit.toNat ≤ 0x66)

namespace Volume

def size (v : Volume) : Int := (v.usage.map UsageData.size).getD 0

def refCount (v : Volume) : Int := (v.usage.map UsageData.refCount).getD 0

/-- A volume that this cache has made: by its name and by its label. -/
def isCache (v : Volume) : Bool :=
  let hash := v.name.drop cachePrefix.length
  cachePrefix.isPrefixOf v.name && hash.length == 64 && hash.all isHex &&
    v.cacheLabel == some (text "sha256:" ++ hash)

def isWebDevelopment (v : Volume) : Bool :=
  v.profileLabel == some (text "web-development")

end Volume

def isSafeInteger (value : Int) : Bool :=
  -9007199254740991 ≤ value && value ≤ 9007199254740991

namespace Request

variable (request : Request)

def bytes : Int :=
  match request.profile with
  | .standard => perVolumeBytes
  | .webDevelopment => webDevelopmentBytes

def label : JsString :=
  match request.profile with
  | .standard => text "standard"
  | .webDevelopment => text "web-development"

/-- A volume that cannot be judged, or is another one than was asked for. -/
def distrusts (v : Volume) : Bool :=
  v.driver != text "local" || !v.options.isEmpty ||
    (match v.usage with
      | some usage =>
        !isSafeInteger usage.size || !isSafeInteger usage.refCount ||
          usage.size < 0 || usage.refCount < 0
      | none => true) ||
    v.profileLabel.any (fun label =>
      label != text "standard" && label != text "web-development") ||
    (v.name == request.name &&
      v.profileLabel.getD (text "standard") != request.label)

def volumeLimit (v : Volume) : Int :=
  if v.name = request.name then request.bytes
  else if v.isWebDevelopment then webDevelopmentBytes
  else perVolumeBytes

def charge (v : Volume) : Int :=
  if v.name = request.name ∨ 0 < v.refCount then
    max (request.volumeLimit v) v.size
  else v.size

def standard (v : Volume) : Bool := request.volumeLimit v = perVolumeBytes

def has (volumes : List Volume) : Bool :=
  volumes.any fun v => v.name = request.name

/-- What a volume costs the standard volumes. -/
def standardCharge (v : Volume) : Int :=
  if request.standard v then request.charge v else 0

/-- What has to be kept for the one that was asked for. -/
def owed (volumes : List Volume) : Int :=
  if request.has volumes then 0 else request.bytes

def standardOwed (volumes : List Volume) : Int :=
  if request.has volumes = false ∧ request.profile = .standard then
    request.bytes
  else 0

def counted (volumes : List Volume) : Int :=
  volumes.length + if request.has volumes then 0 else 1

end Request

/-- The running totals, and what has been deleted. -/
structure Pool where
  bytes : Int
  standardBytes : Int
  count : Int
  deleted : List Volume

namespace Request

variable (request : Request)

/-- `entries.reduce((n, v) => n + cost(v), start)`. -/
def total (cost : Volume → Int) (start : Int) (entries : List Volume) : Int :=
  entries.foldl (fun n v => double (n + cost v)) start

def initial (entries : List Volume) : Pool where
  bytes := total request.charge (request.owed entries) entries
  standardBytes :=
    total request.standardCharge (request.standardOwed entries) entries
  count := request.counted entries
  deleted := []

/-- A volume that is passed over: the one that was asked for, one whose
deletion would not help, one that is in use. -/
def passes (pool : Pool) (v : Volume) : Bool :=
  (v.name = request.name && v.size ≤ request.volumeLimit v) ||
    (v.name ≠ request.name && pool.bytes ≤ poolBytes &&
      (pool.standardBytes ≤ volumeBytes || !request.standard v) &&
      pool.count ≤ volumeFiles && v.size ≤ request.volumeLimit v) ||
    0 < v.refCount

/-- What is found just before the deletion is still the volume. -/
def same (v live : Volume) : Bool :=
  live.name == v.name && live.driver == text "local" &&
    live.options.isEmpty && live.cacheLabel == v.cacheLabel &&
    live.profileLabel == v.profileLabel

def delete (pool : Pool) (v : Volume) : Pool :=
  if v.name ≠ request.name then
    { bytes := double (pool.bytes - request.charge v)
      standardBytes :=
        if request.standard v then
          double (pool.standardBytes - request.charge v)
        else pool.standardBytes
      count := pool.count - 1
      deleted := pool.deleted ++ [v] }
  else
    { bytes := double (pool.bytes + double (request.bytes - request.charge v))
      standardBytes :=
        if request.standard v then
          double (pool.standardBytes +
            double (request.bytes - request.charge v))
        else pool.standardBytes
      count := pool.count
      deleted := pool.deleted ++ [v] }

def evict (daemon : Daemon) : List Volume → Pool → Pool × Option CacheError
  | [], pool => (pool, none)
  | v :: rest, pool =>
    if request.passes pool v then evict daemon rest pool
    else
      match daemon.inspect v.name with
      | none => (pool, some .daemon)
      | some live =>
        if same v live = false then (pool, some .untrusted)
        else if daemon.remove v.name = false then (pool, some .daemon)
        else evict daemon rest (request.delete pool v)

end Request

/-- The oldest first, and by name where the dates do not tell. -/
def olderFirst (clock : Clock) (left right : Volume) : Bool :=
  match left.createdAt.bind clock.dateParse,
    right.createdAt.bind clock.dateParse with
  | some first, some second =>
    if first = second then (clock.localeCompare left.name right.name).isLE
    else first < second
  | _, _ => (clock.localeCompare left.name right.name).isLE

/-- What is left of a call: the volumes that it deleted, and its error. -/
structure Reserved where
  deleted : List Volume
  error : Option CacheError
deriving DecidableEq

def reserveProjectVolume (clock : Clock) (daemon : Daemon) (request : Request)
    (measured : Measured) : Reserved :=
  let entries := measured.volumes.filter Volume.isCache
  if entries.any request.distrusts then ⟨[], some .untrusted⟩
  else
    let (pool, error) := request.evict daemon
      (entries.mergeSort (olderFirst clock)) (request.initial entries)
    match error with
    | some error => ⟨pool.deleted, some error⟩
    | none =>
      if poolBytes < pool.bytes ∨ volumeBytes < pool.standardBytes ∨
          volumeFiles < pool.count then
        ⟨pool.deleted, some .limit⟩
      else ⟨pool.deleted, none⟩

end Allrice.ProjectCache
