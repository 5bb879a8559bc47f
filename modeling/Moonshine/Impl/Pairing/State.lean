import Mathlib.Data.Finset.Basic
import Moonshine.Framework.Outcome

/-!
# The persistent state, `state.rs`

The paired clients and certificates, in memory and in the state file. How a
write of the file ends is the environment's choice (`SaveResult`). No call
panics while it holds a lock, so no lock is ever poisoned.
-/

namespace Moonshine.Impl.Pairing

open Moonshine.Framework

/-- `StateData`. -/
structure StateData where
  clients : Finset String
  pairedCerts : Finset String
  deriving DecidableEq

/-- A write that fails can leave a part of the file. -/
inductive SaveResult
  | written | failed | truncated
  deriving DecidableEq, Repr

structure PersistentState where
  data : StateData
  /-- What the state file holds, if it can be read. -/
  file : Option StateData
  deriving DecidableEq

namespace PersistentState

def save : SaveResult → Prog PersistentState PUnit
  | .written => Prog.modify fun s => { s with file := some s.data }
  | .failed => Prog.lift .err
  | .truncated => do
    Prog.modify fun s => { s with file := none }
    Prog.lift .err

def hasClient (client : String) : Prog PersistentState Bool :=
  Prog.gets fun s => client ∈ s.data.clients

def addClient (client : String) (result : SaveResult) : Prog PersistentState Bool := do
  let known ← hasClient client
  if known then return false
  else
    Prog.modify fun s => { s with data.clients := insert client s.data.clients }
    save result
    return true

def hasPairedCert (fingerprint : String) : Prog PersistentState Bool :=
  Prog.gets fun s => fingerprint ∈ s.data.pairedCerts

def addPairedCert (fingerprint : String) (result : SaveResult) : Prog PersistentState Bool := do
  let known ← hasPairedCert fingerprint
  if known then return false
  else
    Prog.modify fun s => { s with data.pairedCerts := insert fingerprint s.data.pairedCerts }
    save result
    return true

end PersistentState

end Moonshine.Impl.Pairing
