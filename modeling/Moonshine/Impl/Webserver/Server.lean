import Moonshine.Framework.HashMap
import Moonshine.Impl.Pairing.Requests
import Moonshine.Impl.Session.Manager
import Moonshine.Impl.Session.Negotiation

/-!
# The server, `webserver/mod.rs`, `webserver/pairing.rs` and `rtsp.rs`

The requests of the HTTP and HTTPS listeners and the connections to the RTSP
server, each a task of its own, over the records of pairing and the session
manager that they share. A task runs on its own up to its next call of the
session manager, takes the lock there (`call`), and goes on when the call has
returned (`finish`). The client may go at any time (`drop`), which drops what
its task awaits.

What comes from the crates that parse forms, texts and images is a field of
`Config`. The texts of refusals are left out, and so are the fields of the
server's information that never change.
-/

namespace Moonshine.Impl.Server

open Moonshine.Framework Moonshine.Impl.Pairing Moonshine.Impl.Negotiation

/-- Identifies a task: a request of a client, or a connection to the RTSP server. -/
abbrev TaskId := Webserver.RequestId

/-! ## Requests -/

inductive Method
  | get | post | other
  deriving DecidableEq, Repr

/-- Which listener has accepted the connection, with the certificates that the
peer has shown it. -/
inductive Connection
  | http
  | https (peerCertificates : Option (List (List Byte)))
  deriving DecidableEq, Repr

structure Request where
  method : Method
  path : String
  query : Option (List Byte)
  /-- `none` if it cannot be read to its end. -/
  body : Option (List Byte)
  connection : Connection
  /-- `rtsp_host` of the local address, if there is one. -/
  host : Option String
  deriving DecidableEq, Repr

/-- The parameters of a request, by name. -/
abbrev Params := HashMap String String

inductive RtspStatus
  | ok | badRequest | internalServerError
  deriving DecidableEq, Repr

inductive Response
  /-- The elements of the document. -/
  | document (elements : List (String × String))
  | appList (applications : List Int32)
  | image (bytes : List Byte)
  | pinPage (uniqueId : String)
  | pinAccepted
  /-- Status 200, with this one in the document. -/
  | xmlError (statusCode : Nat)
  | badRequest | unauthorized | notFound
  deriving DecidableEq, Repr

/-- The configuration of the servers, and the functions of the crates that they use. -/
structure Config (x : Crates) where
  enablePairing : Bool
  rtspPort : UInt16
  /-- The IDs of the applications. -/
  applications : List Int32
  /-- `video_config.encrypt`. -/
  encryptVideo : Bool
  /-- `url::form_urlencoded::parse`. -/
  parseForm : List Byte → List (String × String)
  /-- `String::from_utf8`, of a certificate. -/
  fromUtf8 : List Byte → Option x.Pem
  /-- The boxart of an application, if it has one that can be read. -/
  boxart : Int32 → Option (List Byte)

/-- The random bytes and the saves of the calls that a request makes. -/
structure Draws where
  serverSecret : Option (List Byte)
  serverChallenge : Option (List Byte)
  certSave : SaveResult
  clientSave : SaveResult
  deriving DecidableEq, Repr

/-! ## Calls of the session manager -/

inductive Command
  | initializeSession (context : SessionContext)
  | launchSession
  /-- With whether it cleans up after a launch. -/
  | stopSession (launchFailed : Bool)
  | updateKeys (keys : SessionKeyData)
  | setStreamContext (video : VideoStreamContext) (audio : AudioStreamContext)
  | startSession
  deriving DecidableEq

def Command.action (c : SessionManager.CallId) : Command → SessionManager.Action
  | initializeSession context => .initializeSession c (.keys context.keys)
  | launchSession => .launchSession c
  | stopSession _ => .stopSession c
  | updateKeys keys => .updateKeys c keys
  | setStreamContext video audio => .setStreamContext c video audio
  | startSession => .startSession c

/-- What the synchronous part of a request comes to. -/
inductive Handling (x : Crates)
  | respond (response : Response)
  | serverInfo (uniqueId : Option String)
  | getServerCert (id : String) (pem : x.Pem) (salt : List Byte)
  | pairing (id : String) (request : Pairing.Request)
  | clientPairingSecret (id : String) (clientSecret : List Byte)
  | call (command : Command)
  | panic

/-! ## Routes -/

variable {x : Crates}

/-- `collect()` into a map: the last of a name's values stays. -/
def collect (pairs : List (String × String)) : Params :=
  pairs.foldl (fun params p => params.insert p.1 p.2) ∅

/-- `peer_cert_fingerprint`. -/
def peerCertFingerprint (x : Crates) : Connection → Option String
  | .http => none
  | .https peerCertificates =>
    (peerCertificates.bind List.head?).map fun certificate => hexEncode (x.sha256 certificate)

/-- `verify_paired_client`: the refusal. -/
def verifyPairedClient (data : StateData) : Option String → Option Response
  | some fingerprint => if fingerprint ∈ data.pairedCerts then none else some .unauthorized
  | none => some .unauthorized

/-- Goes on if the client is a paired one. -/
def ifPaired (data : StateData) (peer : Option String) (handling : Handling x) : Handling x :=
  match verifyPairedClient data peer with
  | some refusal => .respond refusal
  | none => handling

namespace Config

variable (server : Config x)

/-- `sessionUrl0`. -/
def sessionUrl (host : Option String) : List (String × String) :=
  match host with
  | some host => [("sessionUrl0", "rtsp://" ++ host ++ ":" ++ toString server.rtspPort.toNat)]
  | none => []

/-- `app_asset`, where `find` looks for the ID. -/
def appAsset (params : Params) : Outcome Response := do
  let applicationId ← Outcome.ofOption ((params.get? "appid").bind fun v => parseI32 v.toList)
  if applicationId ∈ server.applications then
    let bytes ← Outcome.ofOption (server.boxart applicationId)
    return .image bytes
  else
    -- The ID in the answer.
    let _ ← checkedI32 (applicationId.toInt - 1)
    .err

/-- `pin`, up to the ID that it puts into the page. -/
def pin (params : Params) : Response :=
  let digits := (params.get? "uniqueid").map fun id =>
    ((id.toList.filter fun c => (hexDigit c).isSome).take 16)
  match digits.filter fun digits => digits ≠ [] with
  | some digits => .pinPage (String.ofList digits)
  | none => .pinPage "0123456789ABCDEF"

/-- `get_server_cert`, up to `start_pairing`. -/
def getServerCert (params : Params) : Option (Handling x) := do
  let clientCert ← (params.get? "clientcert").bind fun v => hexDecode v.toList
  let clientPem ← server.fromUtf8 clientCert
  let uniqueId ← params.get? "uniqueid"
  let salt ← (params.get? "salt").bind fun v => hexDecode v.toList
  if salt.length = 16 then some (.getServerCert uniqueId clientPem salt) else none

/-- A request for the record of `uniqueid`, with the bytes of a parameter. -/
def withRecord (params : Params) (name : String) (handling : String → List Byte → Handling x) :
    Option (Handling x) := do
  let uniqueId ← params.get? "uniqueid"
  let bytes ← (params.get? name).bind fun v => hexDecode v.toList
  return handling uniqueId bytes

/-- `client_challenge`. -/
def clientChallenge (params : Params) (draws : Draws) : Option (Handling x) :=
  withRecord params "clientchallenge" fun id challenge =>
    .pairing id (.clientChallenge challenge draws.serverSecret draws.serverChallenge)

/-- `server_challenge_response`. -/
def serverChallengeResponse (params : Params) : Option (Handling x) :=
  withRecord params "serverchallengeresp" fun id response =>
    .pairing id (.serverChallengeResponse response)

/-- `client_pairing_secret`. -/
def clientPairingSecret (params : Params) : Option (Handling x) :=
  withRecord params "clientpairingsecret" .clientPairingSecret

/-- `pair_challenge`. -/
def pairChallenge (params : Params) : Option (Handling x) :=
  (params.get? "uniqueid").map fun _ => .respond (.document [("paired", "1")])

/-- `handle_pair_request`. -/
def handlePairRequest (params : Params) (draws : Draws) : Handling x :=
  let handling :=
    match params.get? "phrase" with
    | some phrase =>
      if phrase = "getservercert" then server.getServerCert params
      else if phrase = "pairchallenge" then pairChallenge params
      else none
    | none =>
      if "clientchallenge" ∈ params then clientChallenge params draws
      else if "serverchallengeresp" ∈ params then serverChallengeResponse params
      else if "clientpairingsecret" ∈ params then clientPairingSecret params
      else none
  handling.getD (.respond .badRequest)

/-- `submit_pin`. -/
def submitPin (body : Option (List Byte)) : Handling x :=
  let handling : Option (Handling x) := do
    let body ← body.filter fun body => body.length ≤ 1024
    let params := collect (server.parseForm body)
    let uniqueId ← params.get? "uniqueid"
    let pin ← params.get? "pin"
    return .pairing uniqueId (.registerPin pin.toUTF8.data.toList)
  handling.getD (.respond .badRequest)

/-- `launch`, up to the first call. -/
def launch (params : Params) : Handling x :=
  match Negotiation.launch server.applications params.get? with
  | .ok context => .call (.initializeSession context)
  | .err => .respond (.xmlError 400)
  | .panic => .panic

/-- `resume`, up to its call. -/
def resume (params : Params) : Handling x :=
  match Negotiation.resume params.get? with
  | .ok keys => .call (.updateKeys keys)
  | .err => .respond (.xmlError 400)
  | .panic => .panic

def respondTo : Outcome Response → Handling x
  | .ok response => .respond response
  | .err => .respond .badRequest
  | .panic => .panic

def params (request : Request) : Params :=
  match request.query with
  | some query => collect (server.parseForm query)
  | none => ∅

/-- Goes on if pairing is enabled. -/
def ifPairing (handling : Handling x) : Handling x :=
  if server.enablePairing then handling else .respond .badRequest

/-- The routes of the HTTPS listener. -/
def serveHttps (data : StateData) (peer : Option String) (request : Request) (draws : Draws) : Handling x :=
  let params := server.params request
  let route := (request.method, request.path)
  if route = (.get, "/serverinfo") then .serverInfo (params.get? "uniqueid")
  else if route = (.get, "/applist") then ifPaired data peer (.respond (.appList server.applications))
  else if route = (.get, "/appasset") then ifPaired data peer (respondTo (server.appAsset params))
  else if route = (.get, "/pair") then server.ifPairing (server.handlePairRequest params draws)
  else if route = (.get, "/unpair") then .respond (.document [])
  else if route = (.get, "/launch") then ifPaired data peer (server.launch params)
  else if route = (.get, "/resume") then ifPaired data peer (resume params)
  else if route = (.get, "/cancel") then ifPaired data peer (.call (.stopSession false))
  else .respond .notFound

/-- The routes of the HTTP listener. -/
def serveHttp (request : Request) (draws : Draws) : Handling x :=
  let params := server.params request
  let route := (request.method, request.path)
  if route = (.get, "/serverinfo") then .serverInfo none
  else if route = (.get, "/pair") then server.ifPairing (server.handlePairRequest params draws)
  else if route = (.get, "/pin") then server.ifPairing (.respond (pin params))
  else if route = (.post, "/submit-pin") then server.ifPairing (server.submitPin request.body)
  else if route = (.get, "/unpair") then .respond (.document [])
  else .respond .notFound

/-- `serve`, up to where it first waits. -/
def serve (data : StateData) (request : Request) (draws : Draws) : Handling x :=
  match request.connection with
  | .https _ => server.serveHttps data (peerCertFingerprint x request.connection) request draws
  | .http => server.serveHttp request draws

end Config

/-! ## Tasks -/

/-- What a message to the RTSP server asks for. -/
inductive RtspMessage
  /-- With the session that its body describes, if that can be parsed. -/
  | announce (sdp : Option SdpSession)
  | play
  /-- DESCRIBE, OPTIONS, SETUP, and what is refused, by its answer. -/
  | other (status : RtspStatus)

/-- Where a task stands. -/
inductive Task
  | idle
  /-- In `get_server_cert`, waiting for the PIN. -/
  | pairing
  /-- In `server_info`, waiting for the lock. -/
  | serverInfo (uniqueId : Option String)
  /-- About to call the session manager, with the host for the answer. -/
  | calling (host : Option String) (command : Command)
  | awaiting (host : Option String) (command : Command) (c : SessionManager.CallId)
  | answered (response : Response)
  /-- An RTSP connection, before the check for a session. -/
  | connected
  /-- Past it, reading the message. -/
  | reading
  /-- In `handle_announce_request`, with what the body describes. -/
  | announcing (sdp : SdpSession)
  | replied (status : RtspStatus)
  /-- Refused, dropped or panicked. -/
  | ended

/-- `handle_connection`, with the message that it has read. -/
def Task.message : Task → RtspMessage → Option Task
  | reading, .announce (some sdp) => some (announcing sdp)
  | reading, .announce none => some (replied .badRequest)
  | reading, .play => some (calling none .startSession)
  | reading, .other status => some (replied status)
  | _, _ => none

/-- The servers, with what their tasks share. -/
structure World (x : Crates) where
  pairing : Webserver.World x
  sessions : SessionManager.World
  /-- `session.context()`, by the keys channel of the session. -/
  contexts : SessionManager.KeysChannel → Option SessionContext
  tasks : TaskId → Task

namespace World

def start (state : PersistentState) (certPem keyPem : x.Pem) : World x where
  pairing := Webserver.World.start ⟨OrdMap.empty, state, certPem, keyPem⟩ certPem
  sessions := SessionManager.World.new
  contexts := fun _ => none
  tasks := fun _ => .idle

def setTask (w : World x) (t : TaskId) (task : Task) : World x :=
  { w with tasks := Function.update w.tasks t task }

/-- The state of the clients and certificates that are paired. -/
def paired (w : World x) : StateData := w.pairing.manager.state.data

/-- `get_session_context`. -/
def sessionContext (w : World x) : Option SessionContext :=
  w.sessions.inner.session.bind fun session => w.contexts session.session.keysRx

/-- `server_info`, with the lock: the elements that can change. -/
def serverInfo (w : World x) (uniqueId : Option String) : Response :=
  let paired := uniqueId.any fun id => decide (id ∈ w.paired.clients)
  let currentGame := (w.sessionContext.map fun context => context.applicationId.toInt).getD 0
  .document [("PairStatus", if paired then "1" else "0"), ("currentgame", toString currentGame),
    ("state", if w.sessionContext.isSome then "MOONSHINE_SERVER_BUSY" else "MOONSHINE_SERVER_FREE")]

/-- The contexts once the call of a command has got to `sessions`: the session
that it initializes has a channel of its own. -/
def contextsAfter (w : World x) (sessions : SessionManager.World) :
    Command → SessionManager.KeysChannel → Option SessionContext
  | .initializeSession context =>
    if sessions.nextChannel = w.sessions.nextChannel then w.contexts
    else Function.update w.contexts w.sessions.nextChannel (some context)
  | _ => w.contexts

end World

/-- The answer to a request for a record, by what the call returned. -/
def pairingResponse (request : Pairing.Request) : Outcome (List Byte) → Task
  | .ok bytes => .answered <| match request with
    | .registerPin _ => .pinAccepted
    | .clientChallenge .. => .document [("paired", "1"), ("challengeresponse", hexEncode bytes)]
    | .serverChallengeResponse _ => .document [("paired", "1"), ("pairingsecret", hexEncode bytes)]
  | .err => .answered .badRequest
  | .panic => .ended

/-- The answer to a secret, by what the check returned. -/
def secretResponse : Outcome PUnit → Task
  | .ok _ => .answered (.document [("paired", "1")])
  | .err => .answered .badRequest
  | .panic => .ended

namespace Config

variable (server : Config x)

/-- What a task does when its call has returned. -/
def finished (host : Option String) : Command → Bool → Task
  | .initializeSession _, true => .calling host .launchSession
  | .initializeSession _, false => .answered (.xmlError 400)
  | .launchSession, true => .answered (.document (("gamesession", "1") :: server.sessionUrl host))
  | .launchSession, false => .calling host (.stopSession true)
  | .stopSession true, _ => .answered (.xmlError 503)
  | .stopSession false, true => .answered (.document [("cancel", "1")])
  | .stopSession false, false => .answered .badRequest
  | .updateKeys _, true => .answered (.document (server.sessionUrl host ++ [("resume", "1")]))
  | .updateKeys _, false => .answered (.xmlError 400)
  | .setStreamContext .., ok | .startSession, ok => .replied (if ok then .ok else .internalServerError)

/-- `handle_announce_request`, with the session's context. -/
def announce (context : Option SessionContext) (sdp : SdpSession) : Task :=
  let session := context.map fun context => (context.audioChannels, context.audioChannelMask)
  match handleAnnounceRequest server.encryptVideo session sdp with
  | .ok (video, audio) => .calling none (.setStreamContext video audio)
  | .err => .replied .badRequest
  | .panic => .ended

end Config

/-! ## Steps -/

/-- One move of one party. -/
inductive Action (x : Crates)
  /-- A request comes in, and runs up to where it first waits. -/
  | receive (t : TaskId) (request : Request) (draws : Draws)
  /-- A client connects to the RTSP server. -/
  | accept (t : TaskId)
  /-- A task gets the lock to look for the session, in `server_info`, in `handle_connection`
  or in `handle_announce_request`. -/
  | look (t : TaskId)
  /-- An RTSP message has been read. -/
  | message (t : TaskId) (message : RtspMessage)
  /-- A task gets the lock for its call, which is `c` from then on. -/
  | call (t : TaskId) (c : SessionManager.CallId)
  /-- A task goes on, as its call has returned. -/
  | finish (t : TaskId)
  /-- The launch has taken too long. -/
  | timeout (t : TaskId)
  /-- The client has gone. -/
  | drop (t : TaskId)
  /-- What waits for a PIN runs on, or is aborted by the shutdown. -/
  | advance (t : TaskId)
  | abort (t : TaskId)
  /-- A call, a watchdog or a component moves on its own. -/
  | session (a : SessionManager.Action)

/-- It does not begin a call of the session manager, nor drop one. -/
def ofItself : SessionManager.Action → Bool
  | .initializeSession .. | .launchSession _ | .setStreamContext .. | .startSession _ | .stopSession _
  | .updateKeys .. | .cancel _ => false
  | .initializeReturned .. | .launchReturned .. | .launchLock _ | .startLock _ | .startReturned ..
  | .stopTrigger _ | .stopReturned .. | .componentTrigger .. | .shutdownTrigger | .watchdogWake _
  | .watchdogQueue _ | .watchdogLock _ => true

namespace World

/-- The synchronous part of a request, up to where it first waits. -/
def handle (w : World x) (t : TaskId) (host : Option String) (draws : Draws) : Handling x → Option (World x)
  | .respond response => some (w.setTask t (.answered response))
  | .serverInfo uniqueId => some (w.setTask t (.serverInfo uniqueId))
  | .getServerCert id pem salt =>
    (Webserver.step w.pairing (.getServerCert t id pem salt)).map fun pairing =>
      { w.setTask t .pairing with pairing }
  | .pairing id request =>
    (Webserver.step w.pairing (.request id request)).map fun pairing =>
      { w.setTask t (pairingResponse request (ClientManager.serve id request w.pairing.manager).1) with
        pairing }
  | .clientPairingSecret id clientSecret =>
    (Webserver.step w.pairing (.checkClientPairingSecret id clientSecret draws.certSave
      draws.clientSave)).map fun pairing =>
      { w.setTask t (secretResponse (ClientManager.checkClientPairingSecret id clientSecret draws.certSave
          draws.clientSave w.pairing.manager).1) with
        pairing }
  | .call command => some (w.setTask t (.calling host command))
  | .panic => some (w.setTask t .ended)

/-- What a task does with the lock that it looks for the session under. -/
def look (server : Config x) (w : World x) : Task → Option Task
  | .serverInfo uniqueId => some (.answered (w.serverInfo uniqueId))
  | .connected => some (if w.sessionContext.isSome then .reading else .ended)
  | .announcing sdp => some (server.announce w.sessionContext sdp)
  | _ => none

/-- The call that a task drops. -/
def cancel (w : World x) (c : SessionManager.CallId) : SessionManager.World :=
  (SessionManager.step w.sessions (.cancel c)).getD w.sessions

end World

/-- The state after an action, `none` if the party is not at that point. -/
def step (server : Config x) (w : World x) : Action x → Option (World x)
  | .receive t request draws =>
    match w.tasks t with
    | .idle => w.handle t request.host draws (server.serve w.paired request draws)
    | _ => none
  | .accept t =>
    match w.tasks t with
    | .idle => some (w.setTask t .connected)
    | _ => none
  | .look t =>
    match w.sessions.lock with
    | none => (w.look server (w.tasks t)).map (w.setTask t)
    | some _ => none
  | .message t message => ((w.tasks t).message message).map (w.setTask t)
  | .call t c =>
    match w.tasks t with
    | .calling host command =>
      (SessionManager.step w.sessions (command.action c)).map fun sessions =>
        { w.setTask t (.awaiting host command c) with
          sessions
          contexts := w.contextsAfter sessions command }
    | _ => none
  | .finish t =>
    match w.tasks t with
    | .awaiting host command c =>
      match w.sessions.calls c with
      | .returned ok => some (w.setTask t (server.finished host command ok))
      | _ => none
    | _ => none
  | .timeout t =>
    match w.tasks t with
    | .calling host .launchSession => some (w.setTask t (.calling host (.stopSession true)))
    | .awaiting host .launchSession c =>
      match w.sessions.calls c with
      -- It is polled first.
      | .returned _ => none
      | _ => some { w.setTask t (.calling host (.stopSession true)) with sessions := w.cancel c }
    | _ => none
  | .drop t =>
    match w.tasks t with
    | .idle | .answered _ | .replied _ | .ended => none
    | .pairing =>
      (Webserver.step w.pairing (.drop t)).map fun pairing => { w.setTask t .ended with pairing }
    | .awaiting _ _ c => some { w.setTask t .ended with sessions := w.cancel c }
    | .serverInfo _ | .calling .. | .connected | .reading | .announcing _ => some (w.setTask t .ended)
  | .advance t => (Webserver.step w.pairing (.advance t)).map fun pairing => { w with pairing }
  | .abort t => (Webserver.step w.pairing (.abort t)).map fun pairing => { w with pairing }
  | .session a =>
    if ofItself a then
      (SessionManager.step w.sessions a).map fun sessions =>
        -- The two share the `ShutdownManager` of the application.
        { w with
          sessions
          pairing := { w.pairing with
            shutdownTriggered := w.pairing.shutdownTriggered || sessions.shutdown } }
    else none

end Moonshine.Impl.Server
