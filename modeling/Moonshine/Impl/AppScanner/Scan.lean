import Mathlib.Data.Finset.Insert
import Moonshine.Impl.AppScanner.Desktop

/-!
# The applications, `app_scanner/mod.rs` and `session/application.rs`

`scan_applications` puts together what the scanners have found, and `main` puts that after
the applications of the configuration. `hash` is what `DefaultHasher` makes of a title.
-/

namespace Moonshine.Impl.AppScanner

open Moonshine.Impl.Negotiation

structure ApplicationConfig where
  title : String
  boxart : Option String
  command : List String
  preCommand : List (List String)
  postCommand : List (List String)
  stdout : Option String
  stderr : Option String
  launchTimeoutSecs : UInt64
  deriving DecidableEq, Repr

/-- `id`, the low half of the hash. -/
def ApplicationConfig.id (hash : String → UInt64) (application : ApplicationConfig) : Int32 :=
  (hash application.title).toUInt32.toInt32

def toAsciiLowercase (c : Char) : Char := if 'A' ≤ c ∧ c ≤ 'Z' then Char.ofNat (c.toNat + 32) else c

/-- What an application is told apart by: the title and the joined command. -/
def dedupeKey (application : ApplicationConfig) : List Char × List Char :=
  ((trim application.title.toList).map toAsciiLowercase,
    [Char.ofNat 0x1f].intercalate (application.command.map String.toList))

structure Scan where
  applications : List ApplicationConfig
  dedupeKeys : Finset (List Char × List Char)

namespace Scan

def empty : Scan := ⟨[], ∅⟩

def push (scan : Scan) (application : ApplicationConfig) : Scan :=
  if dedupeKey application ∈ scan.dedupeKeys then scan
  else ⟨scan.applications ++ [application], insert (dedupeKey application) scan.dedupeKeys⟩

/-- One scanner, which may fail. -/
def scanner (scan : Scan) : Option (List ApplicationConfig) → Scan
  | some scannedApplications => scannedApplications.foldl push scan
  | none => scan

end Scan

/-- `scan_applications`, from what each scanner returns. -/
def scanApplications (scanners : List (Option (List ApplicationConfig))) : List ApplicationConfig :=
  (scanners.foldl Scan.scanner .empty).applications

/-- `resolve_missing_boxart`, with `find_icon_by_name`. -/
def resolveMissingBoxart (findIconByName : List Char → Option String) (applications : List ApplicationConfig) :
    List ApplicationConfig :=
  applications.map fun application =>
    if application.boxart.isNone then
      { application with boxart := findIconByName (application.title.toList.map toAsciiLowercase) }
    else application

/-- The applications of the server, as `main` makes them. -/
def servedApplications (findIconByName : List Char → Option String) (configured : List ApplicationConfig)
    (scanners : List (Option (List ApplicationConfig))) : List ApplicationConfig :=
  resolveMissingBoxart findIconByName (configured ++ scanApplications scanners)

end Moonshine.Impl.AppScanner
