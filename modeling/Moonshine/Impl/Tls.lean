import Mathlib.Logic.Function.Basic
import Moonshine.Framework.Outcome

/-!
# The server's certificate, `tls.rs`

`load_or_create_certificate`, over the two files that the configuration names, which
are two different ones. How each operation of a call ends is the environment's choice
(`Call`). That the process stops there is an operation's `panic`: nothing that follows
runs, and what was written so far stays.
-/

namespace Moonshine.Impl.Tls

open Moonshine.Framework

abbrev Pem := List UInt8

/-- `config.webserver`'s paths. -/
inductive FileName
  | certificate | privateKey
  deriving DecidableEq, Repr

/-- What is on disk, `none` where there is no file. -/
abbrev Files := FileName → Option Pem

/-- How `File::write` ends. It may write fewer bytes than it is given, and nothing where
it fails; the process may also stop once some are written. -/
inductive Write
  | wrote (count : Nat) | failed | stopped (count : Nat)
  deriving DecidableEq, Repr

/-- How the operations of one call end. -/
structure Call where
  /-- `Path::exists`, of a file that is there. -/
  seen : FileName → Bool
  createCertificate : Outcome (Pem × Pem)
  /-- `Path::parent` and `create_dir_all`. -/
  createDir : FileName → Outcome Unit
  createFile : FileName → Outcome Unit
  write : FileName → Write
  /-- `read_to_string`, of a file that is there. -/
  read : FileName → Outcome Unit

namespace Call

def exist (c : Call) (name : FileName) (files : Files) : Bool := (files name).isSome && c.seen name

/-- `File::create` empties a file that is there; how much `write` took is not looked at. -/
def create (c : Call) (name : FileName) (text : Pem) : Prog Files Unit := do
  c.createDir name
  c.createFile name
  Prog.modify fun files => Function.update files name (some [])
  match c.write name with
  | .wrote n => Prog.modify fun files => Function.update files name (some (text.take n))
  | .failed => Prog.lift .err
  | .stopped n =>
    Prog.modify fun files => Function.update files name (some (text.take n))
    Prog.lift .panic

def readToString (c : Call) (name : FileName) : Prog Files Pem := do
  let file ← Prog.gets fun files => files name
  let text ← Outcome.ofOption file
  c.read name
  return text

/-- The call finds neither file. -/
def missing (c : Call) (files : Files) : Bool := !c.exist .certificate files && !c.exist .privateKey files

def loadOrCreateCertificate (c : Call) : Prog Files (Pem × Pem) := do
  let missing ← Prog.gets c.missing
  if missing then
    let (cert, pkey) ← c.createCertificate
    c.create .certificate cert
    c.create .privateKey pkey
    return (cert, pkey)
  else
    let cert ← c.readToString .certificate
    let pkey ← c.readToString .privateKey
    return (cert, pkey)

end Call

end Moonshine.Impl.Tls
