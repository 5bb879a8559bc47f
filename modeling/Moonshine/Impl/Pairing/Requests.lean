import Mathlib.Logic.Function.Basic
import Moonshine.Impl.Pairing.Clients

/-!
# Waiting for the PIN, `webserver/pairing.rs`

`get_server_cert` stores a record with a fresh `Notify` and then waits until
`register_pin` notifies it, or the server shuts down. Requests are served in
tasks of their own, on several threads: others run between any two of their
actions. `notify_waiters` releases who is waiting at that moment, and leaves
nothing behind for who comes later.

A request whose parameters are refused answers at once and stores no record.
-/

namespace Moonshine.Impl.Webserver

open Moonshine.Framework Moonshine.Impl.Pairing

/-- Identifies a `getservercert` request. -/
abbrev RequestId := Nat

/-- The answers of `get_server_cert` once it has stored its record. -/
inductive Reply (x : Crates)
  | plaincert (pem : x.Pem)
  | badRequest (message : String)

/-- Where a `getservercert` request stands. -/
inductive Handler (x : Crates)
  | idle
  /-- The record is stored, and `notified()` not called yet. -/
  | started
  /-- In the `select!`. -/
  | waiting
  /-- Released from it, and not polled yet. -/
  | notified
  | answered (reply : Reply x)
  /-- The client has gone, and the future was dropped. -/
  | dropped

namespace Handler

variable {x : Crates}

def isIdle : Handler x → Bool
  | .idle => true
  | .started | .waiting | .notified | .answered _ | .dropped => false

def isWaiting : Handler x → Bool
  | .waiting => true
  | .idle | .started | .notified | .answered _ | .dropped => false

/-- The request is in the `select!`. -/
def inSelect : Handler x → Bool
  | .waiting | .notified => true
  | .idle | .started | .answered _ | .dropped => false

end Handler

structure World (x : Crates) where
  manager : ClientManager x
  /-- The field `pin_notify` of the record of an id, by the request that made it. -/
  pinNotify : String → Option RequestId
  handlers : RequestId → Handler x
  /-- The certificate that the server answers with. -/
  serverCerts : x.Pem
  shutdownTriggered : Bool

variable {x : Crates}

def World.start (manager : ClientManager x) (serverCerts : x.Pem) : World x where
  manager := { manager with pendingClients := OrdMap.empty }
  pinNotify := fun _ => none
  handlers := fun _ => .idle
  serverCerts := serverCerts
  shutdownTriggered := false

def World.setHandler (w : World x) (r : RequestId) (h : Handler x) : World x :=
  { w with handlers := Function.update w.handlers r h }

/-- `notify_waiters()` on a `Notify`, by the request that made it. -/
def notifyWaiters (handlers : RequestId → Handler x) : Option RequestId → RequestId → Handler x
  | none => handlers
  | some r => if (handlers r).isWaiting then Function.update handlers r .notified else handlers

inductive Action (x : Crates)
  /-- A `getservercert` request comes in and runs up to the end of `start_pairing`. -/
  | getServerCert (r : RequestId) (id : String) (pem : x.Pem) (salt : List Byte)
  /-- The request runs on. -/
  | advance (r : RequestId)
  /-- Its `select!` takes the branch of the shutdown. -/
  | abort (r : RequestId)
  | drop (r : RequestId)
  /-- The other calls on the records, `register_pin` among them. -/
  | request (id : String) (request : Request)
  | checkClientPairingSecret (id : String) (clientSecret : List Byte) (certSave clientSave : SaveResult)
  | triggerShutdown

/-- A request that runs on calls `notified()`, or answers once it has been released. -/
def advance (w : World x) (r : RequestId) : Option (World x) :=
  match w.handlers r with
  | .started => some (w.setHandler r .waiting)
  | .notified => some (w.setHandler r (.answered (.plaincert w.serverCerts)))
  | .idle | .waiting | .answered _ | .dropped => none

def step (w : World x) : Action x → Option (World x)
  | .getServerCert r id pem salt =>
    if (w.handlers r).isIdle then
      some { w with
        manager := (perform (.startPairing id pem salt) w.manager).2
        pinNotify := Function.update w.pinNotify id (some r)
        handlers := Function.update w.handlers r .started }
    else none
  | .advance r => advance w r
  | .abort r =>
    if (w.handlers r).inSelect ∧ w.shutdownTriggered then
      some (w.setHandler r (.answered (.badRequest "Server is shutting down.")))
    else none
  | .drop r => if (w.handlers r).inSelect then some (w.setHandler r .dropped) else none
  | .request id (.registerPin pin) =>
    some { w with
      manager := (ClientManager.registerPin id pin w.manager).2
      handlers := notifyWaiters w.handlers (w.pinNotify id) }
  | .request id request => some { w with manager := (ClientManager.serve id request w.manager).2 }
  | .checkClientPairingSecret id clientSecret certSave clientSave =>
    some { w with
      manager := (perform (.checkClientPairingSecret id clientSecret certSave clientSave) w.manager).2 }
  | .triggerShutdown => some { w with shutdownTriggered := true }

end Moonshine.Impl.Webserver
