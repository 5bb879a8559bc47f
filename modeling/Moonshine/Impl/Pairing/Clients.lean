import Moonshine.Framework.Bytes
import Moonshine.Framework.OrdMap
import Moonshine.Impl.Pairing.State
import Moonshine.Impl.Stream.Context

/-!
# Pairing, `clients.rs`

The records of the clients that are pairing, and the five calls on them. Each
call holds the lock of the records from start to end, so that calls do not
interleave. What SHA-256, AES, RSA and the parsers of certificates compute is a
parameter (`Crates`); the random bytes are arguments of the call that draws
them.
-/

namespace Moonshine.Impl.Pairing

open Moonshine.Framework Moonshine.Impl

/-- What is used of a parsed certificate. -/
structure X509Certificate where
  signatureValue : List Byte
  subjectPublicKey : List Byte
  deriving DecidableEq, Repr

/-- The functions of the crates that pairing uses. -/
structure Crates where
  /-- Text in the PEM format, which is only passed on to be parsed. -/
  Pem : Type
  sha256 : List Byte → List Byte
  /-- The two directions of AES-128 on a block, under a key. -/
  encryptBlock : (key block : List Byte) → List Byte
  decryptBlock : (key block : List Byte) → List Byte
  /-- `parse_x509_pem`: the contents. -/
  parseX509Pem : Pem → Option (List Byte)
  /-- `parse_x509` of the contents. -/
  parseX509 : List Byte → Option X509Certificate
  /-- `verify` of `RSA_PKCS1_2048_8192_SHA256`. -/
  verify : (publicKey message signature : List Byte) → Bool
  /-- `clients::sign`: `RSA_PKCS1_SHA256` with the key of a PEM. -/
  sign : (data : List Byte) → (keyPem : Pem) → Option (List Byte)

variable (x : Crates)

/-- `create_key`. -/
def createKey (salt pin : List Byte) : List Byte := (x.sha256 (salt ++ pin)).take 16

def blocks (data : List Byte) : List (List Byte) :=
  (List.range (data.length / 16)).map fun i => slice data (16 * i) 16

/-- `aes_encrypt_ecb`. -/
def aesEncryptEcb (data key : List Byte) : Outcome (List Byte) :=
  if data.length % 16 = 0 then .ok ((blocks data).flatMap (x.encryptBlock key)) else .err

/-- `aes_decrypt_ecb`. -/
def aesDecryptEcb (data key : List Byte) : Outcome (List Byte) :=
  if data.length % 16 = 0 then .ok ((blocks data).flatMap (x.decryptBlock key)) else .err

/-- `extract_certificate_signature`. -/
def extractCertificateSignature (pem : x.Pem) : Outcome (List Byte) := do
  let contents ← Outcome.ofOption (x.parseX509Pem pem)
  let certificate ← Outcome.ofOption (x.parseX509 contents)
  return certificate.signatureValue

/-- `verify_client_signature`. -/
def verifyClientSignature (pem : x.Pem) (secret signature : List Byte) : Outcome PUnit := do
  let contents ← Outcome.ofOption (x.parseX509Pem pem)
  let certificate ← Outcome.ofOption (x.parseX509 contents)
  if x.verify certificate.subjectPublicKey secret signature then return ⟨⟩ else .err

/-- `hex::encode`. -/
def hexEncode (bytes : List Byte) : String :=
  String.ofList (bytes.flatMap fun b =>
    [Nat.digitChar (b.toNat / 16), Nat.digitChar (b.toNat % 16)])

/-- `cert_pem_fingerprint`. -/
def certPemFingerprint (pem : x.Pem) : Option String :=
  (x.parseX509Pem pem).map fun contents => hexEncode (x.sha256 contents)

/-- What happened to a record. -/
inductive RecordEvent
  | pinRegistered
  | challengeGenerated (serverChallenge : List Byte)
  | responseRefused
  | hashStored (clientHash : List Byte)
  | secretReturned (serverSecret : List Byte)
  deriving DecidableEq, Repr

/-- `PendingClient`, with a record of what happened to it. -/
structure PendingClient where
  id : String
  pem : x.Pem
  salt : List Byte
  key : Option (List Byte)
  serverSecret : Option (List Byte)
  serverChallenge : Option (List Byte)
  clientHash : Option (List Byte)
  history : List RecordEvent

variable {x}

namespace PendingClient

/-- The record that `get_server_cert` starts a pairing with. -/
def new (id : String) (pem : x.Pem) (salt : List Byte) : PendingClient x where
  id := id
  pem := pem
  salt := salt
  key := none
  serverSecret := none
  serverChallenge := none
  clientHash := none
  history := []

def note (e : RecordEvent) : Prog (PendingClient x) PUnit :=
  Prog.modify fun c => { c with history := c.history ++ [e] }

def registerPin (pin : List Byte) : Prog (PendingClient x) PUnit := do
  Prog.modify fun c => { c with key := some (createKey x c.salt pin) }
  note .pinRegistered

/-- `client_challenge`, with what the two draws of random bytes give. The secret
is stored before the challenge is decrypted. -/
def clientChallenge (serverCertPem : x.Pem) (challenge : List Byte)
    (serverSecret serverChallenge : Option (List Byte)) : Prog (PendingClient x) (List Byte) := do
  let key ← Outcome.ofOption (← Prog.gets PendingClient.key)
  let serverSecret ← Outcome.ofOption serverSecret
  Prog.modify fun c => { c with serverSecret := some serverSecret }
  let decrypted ← aesDecryptEcb x challenge key
  let signature ← extractCertificateSignature x serverCertPem
  let serverChallenge ← Outcome.ofOption serverChallenge
  Prog.modify fun c => { c with serverChallenge := some serverChallenge }
  note (.challengeGenerated serverChallenge)
  aesEncryptEcb x (x.sha256 (decrypted ++ signature ++ serverSecret) ++ serverChallenge) key

/-- What is decrypted of a response, which is refused where there is no key or
not a whole number of blocks. -/
def decryptResponse (response : List Byte) (c : PendingClient x) : Outcome (List Byte) := do
  let key ← Outcome.ofOption c.key
  aesDecryptEcb x response key

/-- `server_challenge_response`: the hash is stored before the secret is
looked up. -/
def serverChallengeResponse (serverPrivateKeyPem : x.Pem) (response : List Byte) :
    Prog (PendingClient x) (List Byte) := do
  match ← Prog.gets (decryptResponse response) with
  | .ok decrypted =>
    Prog.modify fun c => { c with clientHash := some decrypted }
    note (.hashStored decrypted)
    let serverSecret ← Outcome.ofOption (← Prog.gets PendingClient.serverSecret)
    let signed ← Outcome.ofOption (x.sign serverSecret serverPrivateKeyPem)
    note (.secretReturned serverSecret)
    return serverSecret ++ signed
  | _ =>
    note .responseRefused
    Prog.lift .err

/-- `verify_pairing_secret`. -/
def verifyPairingSecret (clientSecret : List Byte) (c : PendingClient x) : Outcome PUnit := do
  let clientHash ← Outcome.ofOption c.clientHash
  let serverChallenge ← Outcome.ofOption c.serverChallenge
  if clientSecret.length < 16 then .err
  else do
    let signature ← extractCertificateSignature x c.pem
    if x.sha256 (serverChallenge ++ signature ++ clientSecret.take 16) ≠ clientHash then .err
    else verifyClientSignature x c.pem (clientSecret.take 16) (clientSecret.drop 16)

end PendingClient

structure ClientManager (x : Crates) where
  pendingClients : OrdMap String (PendingClient x)
  state : PersistentState
  serverCertPem : x.Pem
  serverPrivateKeyPem : x.Pem

/-- The requests about the record of an id. -/
inductive Request
  | registerPin (pin : List Byte)
  | clientChallenge (challenge : List Byte) (serverSecret serverChallenge : Option (List Byte))
  | serverChallengeResponse (response : List Byte)
  deriving DecidableEq, Repr

/-- What a request does to its record. -/
def Request.serve (serverCertPem serverPrivateKeyPem : x.Pem) : Request → Prog (PendingClient x) (List Byte)
  | .registerPin pin => do
    PendingClient.registerPin pin
    return []
  | .clientChallenge challenge serverSecret serverChallenge =>
    PendingClient.clientChallenge serverCertPem challenge serverSecret serverChallenge
  | .serverChallengeResponse response =>
    PendingClient.serverChallengeResponse serverPrivateKeyPem response

namespace ClientManager

def startPairing (c : PendingClient x) : Prog (ClientManager x) PUnit :=
  Prog.modify fun m => { m with pendingClients := m.pendingClients.insert c.id c }

/-- A request about the record of an id, an error if there is none. -/
def serve (id : String) (request : Request) : Prog (ClientManager x) (List Byte) := fun m =>
  match m.pendingClients.get? id with
  | none => (.err, m)
  | some c =>
    let (out, c) := request.serve m.serverCertPem m.serverPrivateKeyPem c
    (out, { m with pendingClients := m.pendingClients.modify id fun _ => c })

def registerPin (id : String) (pin : List Byte) : Prog (ClientManager x) (List Byte) :=
  serve id (.registerPin pin)

def clientChallenge (id : String) (challenge : List Byte)
    (serverSecret serverChallenge : Option (List Byte)) : Prog (ClientManager x) (List Byte) :=
  serve id (.clientChallenge challenge serverSecret serverChallenge)

def serverChallengeResponse (id : String) (response : List Byte) :
    Prog (ClientManager x) (List Byte) :=
  serve id (.serverChallengeResponse response)

/-- A call on the persistent state. -/
def onState {α : Type} (p : Prog PersistentState α) : Prog (ClientManager x) α := fun m =>
  let (out, state) := p m.state
  (out, { m with state })

/-- The certificate's part of `check_client_pairing_secret`: one that cannot be
parsed is passed over. -/
def persistCert (pem : x.Pem) (certSave : SaveResult) : Prog (ClientManager x) PUnit :=
  match certPemFingerprint x pem with
  | some fingerprint => do
    let _ ← onState (PersistentState.addPairedCert fingerprint certSave)
    return ⟨⟩
  | none => return ⟨⟩

/-- The client's part of `check_client_pairing_secret`. -/
def persistClient (id : String) (clientSave : SaveResult) : Prog (ClientManager x) PUnit := do
  let hasClient ← onState (PersistentState.hasClient id)
  if hasClient then return ⟨⟩
  else
    let _ ← onState (PersistentState.addClient id clientSave)
    return ⟨⟩

/-- `check_client_pairing_secret`, with how its two saves end. -/
def checkClientPairingSecret (id : String) (clientSecret : List Byte)
    (certSave clientSave : SaveResult) : Prog (ClientManager x) PUnit := do
  let client ← Outcome.ofOption (← Prog.gets fun m => m.pendingClients.get? id)
  client.verifyPairingSecret clientSecret
  persistCert client.pem certSave
  persistClient id clientSave

end ClientManager

/-- The requests of any clients, in the order in which they get the lock. -/
inductive Action (x : Crates)
  | startPairing (id : String) (pem : x.Pem) (salt : List Byte)
  | request (id : String) (request : Request)
  | checkClientPairingSecret (id : String) (clientSecret : List Byte) (certSave clientSave : SaveResult)

def perform : Action x → Prog (ClientManager x) PUnit
  | .startPairing id pem salt => ClientManager.startPairing (PendingClient.new id pem salt)
  | .request id request => do
    let _ ← ClientManager.serve id request
    return ⟨⟩
  | .checkClientPairingSecret id clientSecret certSave clientSave =>
    ClientManager.checkClientPairingSecret id clientSecret certSave clientSave

/-- The manager, with the requests so far. -/
structure World (x : Crates) where
  manager : ClientManager x
  trace : List (Action x)

/-- `ClientManager::new`, with the state that was loaded. -/
def World.start (state : PersistentState) (serverCertPem serverPrivateKeyPem : x.Pem) : World x :=
  ⟨⟨OrdMap.empty, state, serverCertPem, serverPrivateKeyPem⟩, []⟩

def step (w : World x) (act : Action x) : Option (World x) :=
  some ⟨(perform act w.manager).2, w.trace ++ [act]⟩

end Moonshine.Impl.Pairing
