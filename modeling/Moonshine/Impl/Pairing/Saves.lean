import Moonshine.Framework.RwLock
import Moonshine.Impl.Pairing.State

/-!
# Concurrent saves, `state.rs`

The calls of `add_client` and `add_paired_cert` on a state that their threads share,
each taken apart at the lock, the serialisation and the write of the file, which
replaces it. The guard of `save` is dropped when it returns, after the write. Where
`create_dir_all`, the serialisation or the write fails, the call returns the error,
and a write that fails can leave a part of the file. No call panics while it holds the
lock, so that it is never poisoned.
-/

namespace Moonshine.Impl.Pairing

open Moonshine.Framework

/-- A call, with its argument. -/
inductive AddCall
  | addClient (client : String)
  | addPairedCert (fingerprint : String)
  deriving DecidableEq

namespace AddCall

/-- The value is in the set. -/
def isIn (d : StateData) : AddCall → Bool
  | addClient client => client ∈ d.clients
  | addPairedCert fingerprint => fingerprint ∈ d.pairedCerts

def insertInto (d : StateData) : AddCall → StateData
  | addClient client => { d with clients := insert client d.clients }
  | addPairedCert fingerprint => { d with pairedCerts := insert fingerprint d.pairedCerts }

end AddCall

/-- Where a call stands. -/
inductive Stage
  /-- On its way to the write lock. -/
  | called
  /-- With the write lock. -/
  | writing
  /-- Past the insertion, and whether the value was new. -/
  | inserted (added : Bool)
  /-- Without the write lock. -/
  | unlocked (added : Bool)
  /-- In `save`, with the read lock. -/
  | saving
  /-- With the text for the file. -/
  | serialized (text : StateData)
  | written
  /-- `save` has returned. -/
  | saved
  /-- `none` is an error. -/
  | returned (result : Option Bool)
  deriving DecidableEq

/-- The state that the threads share, and where their calls stand. -/
structure Shared (ι : Type) where
  data : StateData
  file : Option StateData
  lock : RwLock ι
  stage : ι → Stage

/-- How the next step of a call ends. -/
inductive Move
  | works
  /-- What a failed write leaves of the file is lost or not. -/
  | fails (truncated : Bool)
  deriving DecidableEq

namespace Shared

variable {ι : Type} [DecidableEq ι]

/-- The file was written when the data was loaded. -/
def start (data : StateData) : Shared ι := ⟨data, some data, .free, fun _ => .called⟩

def setStage (t : ι) (s : Stage) (w : Shared ι) : Shared ι := { w with stage := Function.update w.stage t s }

/-- `data.clients.insert` or `data.paired_certs.insert`, where the value is new. -/
def insertValue (call : AddCall) (t : ι) (w : Shared ι) : Shared ι :=
  if call.isIn w.data then w.setStage t (.inserted false)
  else { w.setStage t (.inserted true) with data := call.insertInto w.data }

/-- The next step of a call, where it works. -/
def works (call : AddCall) (t : ι) (w : Shared ι) : Option (Shared ι) :=
  match w.stage t with
  | .called => (w.lock.write t).map fun lock => { w.setStage t .writing with lock }
  | .writing => some (w.insertValue call t)
  | .inserted added => some { w.setStage t (.unlocked added) with lock := w.lock.unlockWrite }
  | .unlocked false => some (w.setStage t (.returned (some false)))
  | .unlocked true => (w.lock.read t).map fun lock => { w.setStage t .saving with lock }
  | .saving => some (w.setStage t (.serialized w.data))
  | .serialized text => some { w.setStage t .written with file := some text }
  | .written => some { w.setStage t .saved with lock := w.lock.unlockRead t }
  | .saved => some (w.setStage t (.returned (some true)))
  | .returned _ => none

/-- An error of `save` is returned at once. -/
def failSave (t : ι) (file : Option StateData) (w : Shared ι) : Shared ι :=
  { w.setStage t (.returned none) with file, lock := w.lock.unlockRead t }

def fails (truncated : Bool) (t : ι) (w : Shared ι) : Option (Shared ι) :=
  match w.stage t with
  | .saving => some (w.failSave t w.file)
  | .serialized _ => some (w.failSave t (if truncated then none else w.file))
  | _ => none

/-- A move of the thread `t`. -/
def step (calls : ι → AddCall) (w : Shared ι) : ι × Move → Option (Shared ι)
  | (t, .works) => w.works (calls t) t
  | (t, .fails truncated) => w.fails truncated t

end Shared

end Moonshine.Impl.Pairing
