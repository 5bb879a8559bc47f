import Moonshine.Framework.Run
import Moonshine.Impl.Webserver.Server
import Moonshine.Proof.Pairing.Records
import Moonshine.Proof.Session.Channels

/-!
# Who may use the server

Every call that the server makes of the session manager goes back to a request
over HTTPS of a client whose certificate was paired when the request came in,
and with it every session, every key in a channel of keys and every RTSP
connection that gets past the check for a session. What a request may ask for is
`serve_protected` and `serve_call`; that nothing gets in between is an invariant
of the run (`Inv`).
-/

namespace Moonshine.Proof.Server

open Moonshine.Framework Moonshine.Impl Moonshine.Impl.Server Moonshine.Proof.SessionManager
open Moonshine.Impl.Pairing (Crates StateData PersistentState)

variable {x : Crates} {server : Config x}

/-! ## One request -/

/-- What only a paired client gets. -/
def isProtected : Handling x → Bool
  | .call _ | .respond (.appList _) | .respond (.image _) => true
  | _ => false

/-- The peer's certificate is a paired one. -/
def IsPaired (x : Crates) (data : StateData) (connection : Connection) : Prop :=
  ∃ fingerprint, peerCertFingerprint x connection = some fingerprint ∧ fingerprint ∈ data.pairedCerts

/-- What a request to pair can come to. -/
inductive PairHandling : Handling x → Prop
  | refused : PairHandling (.respond .badRequest)
  | challenged : PairHandling (.respond (.document [("paired", "1")]))
  | getServerCert (id : String) (pem : x.Pem) (salt : List Byte) : PairHandling (.getServerCert id pem salt)
  | clientChallenge (id : String) (challenge : List Byte) (draws : Draws) :
      PairHandling (.pairing id (.clientChallenge challenge draws.serverSecret draws.serverChallenge))
  | serverChallengeResponse (id : String) (response : List Byte) :
      PairHandling (.pairing id (.serverChallengeResponse response))
  | clientPairingSecret (id : String) (clientSecret : List Byte) :
      PairHandling (.clientPairingSecret id clientSecret)

theorem withRecord_handling {params : Params} {name : String} {handling : String → List Byte → Handling x}
    (hall : ∀ id bytes, PairHandling (handling id bytes)) :
    ∀ h ∈ Config.withRecord params name handling, PairHandling h := by
  intro h hmem
  simp only [Config.withRecord, Option.mem_def, Option.bind_eq_bind, Option.bind_eq_some_iff] at hmem
  obtain ⟨id, -, bytes, -, heq⟩ := hmem
  obtain rfl := Option.some.inj heq
  exact hall id bytes

theorem getServerCert_handling {params : Params} :
    ∀ h ∈ server.getServerCert params, PairHandling h := by
  intro h hmem
  simp only [Config.getServerCert, Option.mem_def, Option.bind_eq_bind, Option.bind_eq_some_iff] at hmem
  obtain ⟨cert, -, pem, -, id, -, salt, -, heq⟩ := hmem
  split at heq
  · obtain rfl := Option.some.inj heq
    exact .getServerCert id pem salt
  · cases heq

theorem pairChallenge_handling {params : Params} :
    ∀ h ∈ (Config.pairChallenge params : Option (Handling x)), PairHandling h := by
  intro h hmem
  obtain ⟨id, -, rfl⟩ := Option.map_eq_some_iff.mp hmem
  exact .challenged

theorem getD_handling {P : Handling x → Prop} (hrefused : P (.respond .badRequest)) {o : Option (Handling x)}
    (h : ∀ handling ∈ o, P handling) : P (o.getD (.respond .badRequest)) := by
  cases o with
  | none => exact hrefused
  | some handling => exact h handling rfl

theorem handlePairRequest_handling (params : Params) (draws : Draws) :
    PairHandling (server.handlePairRequest params draws) := by
  have hnone : ∀ h ∈ (none : Option (Handling x)), PairHandling h := by simp
  apply getD_handling .refused
  split
  next phrase =>
    split
    · exact getServerCert_handling
    split
    · exact pairChallenge_handling
    · exact hnone
  next =>
    split
    · exact withRecord_handling fun id challenge => .clientChallenge id challenge draws
    split
    · exact withRecord_handling .serverChallengeResponse
    split
    · exact withRecord_handling .clientPairingSecret
    · exact hnone

theorem PairHandling.unprotected {handling : Handling x} (h : PairHandling handling) :
    isProtected handling = false := by
  cases h <;> rfl

/-- What comes of a PIN that is submitted. -/
inductive PinHandling : Handling x → Prop
  | refused : PinHandling (.respond .badRequest)
  | registerPin (id : String) (pin : List Byte) : PinHandling (.pairing id (.registerPin pin))

theorem PinHandling.unprotected {handling : Handling x} (h : PinHandling handling) :
    isProtected handling = false := by
  cases h <;> rfl

theorem submitPin_handling (body : Option (List Byte)) : PinHandling (server.submitPin body) := by
  refine getD_handling .refused fun h hmem => ?_
  simp only [Option.mem_def, Option.bind_eq_bind, Option.bind_eq_some_iff] at hmem
  obtain ⟨body, -, id, -, pin, -, heq⟩ := hmem
  obtain rfl := Option.some.inj heq
  exact .registerPin id _

theorem ifPairing_open {handling : Handling x} (h : isProtected handling = false) :
    isProtected (server.ifPairing handling) = false := by
  rw [Config.ifPairing]
  split
  · exact h
  · rfl

theorem serveHttp_open (request : Request) (draws : Draws) :
    isProtected (server.serveHttp request draws) = false := by
  rw [Config.serveHttp]
  split
  · rfl
  split
  · exact ifPairing_open (handlePairRequest_handling _ draws).unprotected
  split
  · refine ifPairing_open ?_
    rw [Config.pin]
    split <;> rfl
  split
  · exact ifPairing_open (submitPin_handling _).unprotected
  split <;> rfl

/-- The call that a request asks for, by its path and its parameters. -/
inductive Asks (server : Config x) (request : Request) : Command → Prop
  | launch (hpath : request.path = "/launch") {context : Negotiation.SessionContext}
      (hlaunch : Negotiation.launch server.applications (server.params request).get? = .ok context) :
      Asks server request (.initializeSession context)
  | resume (hpath : request.path = "/resume") {keys : SessionKeyData}
      (hresume : Negotiation.resume (server.params request).get? = .ok keys) :
      Asks server request (.updateKeys keys)
  | cancel (hpath : request.path = "/cancel") : Asks server request (.stopSession false)

/-- What a request comes to: what is protected goes to a client with a paired
certificate, and what that asks for is done. -/
inductive Granted (server : Config x) (data : StateData) (request : Request) : Handling x → Prop
  | unprotected {handling : Handling x} (ho : isProtected handling = false) : Granted server data request handling
  | paired {handling : Handling x} (hpaired : IsPaired x data request.connection)
      (hasks : ∀ command, handling = .call command → Asks server request command) :
      Granted server data request handling

theorem granted_ifPaired {data : StateData} {request : Request} {handling : Handling x}
    (hasks : ∀ command, handling = .call command → Asks server request command) :
    Granted server data request (ifPaired data (peerCertFingerprint x request.connection) handling) := by
  rw [ifPaired]
  cases hpeer : peerCertFingerprint x request.connection with
  | none => exact .unprotected rfl
  | some fingerprint =>
    by_cases hmem : fingerprint ∈ data.pairedCerts
    · rw [verifyPairedClient, if_pos hmem]
      exact .paired ⟨fingerprint, hpeer, hmem⟩ hasks
    · rw [verifyPairedClient, if_neg hmem]
      exact .unprotected rfl

theorem serve_granted (data : StateData) (request : Request) (draws : Draws) :
    Granted server data request (server.serve data request draws) := by
  have hpath {path : String} (h : (request.method, request.path) = (.get, path)) : request.path = path :=
    congrArg Prod.snd h
  rw [Config.serve]
  split
  case h_2 => exact .unprotected (serveHttp_open ..)
  rw [Config.serveHttps]
  split
  · exact .unprotected rfl
  split
  · exact granted_ifPaired fun command h => by cases h
  split
  · refine granted_ifPaired fun command h => ?_
    unfold Config.respondTo at h
    split at h <;> cases h
  split
  · exact .unprotected (ifPairing_open (handlePairRequest_handling _ draws).unprotected)
  split
  · exact .unprotected rfl
  split
  next h =>
    refine granted_ifPaired fun command hcall => ?_
    rw [Config.launch] at hcall
    split at hcall
    next context hlaunch =>
      cases hcall
      exact .launch (hpath h) hlaunch
    all_goals cases hcall
  split
  next h =>
    refine granted_ifPaired fun command hcall => ?_
    rw [Config.resume] at hcall
    split at hcall
    next keys hresume =>
      cases hcall
      exact .resume (hpath h) hresume
    all_goals cases hcall
  split
  next h =>
    refine granted_ifPaired fun command hcall => ?_
    cases hcall
    exact .cancel (hpath h)
  · exact .unprotected rfl

/-! ## What goes back to a paired client -/

section Runs

variable (server) (w₀ : World x)

/-- In the run `as`, the request came in from a client that was paired by then. -/
def FromPaired (as : List (Action x)) (request : Request) : Prop :=
  ∃ before t draws after w, as = before ++ .receive t request draws :: after ∧
    exec (step server) w₀ before = some w ∧ IsPaired x w.paired request.connection

/-- A paired client has asked for the call. -/
def Asked (as : List (Action x)) (command : Command) : Prop :=
  ∃ request, FromPaired server w₀ as request ∧ Asks server request command

/-- A paired client has asked for a session. -/
def Launched (as : List (Action x)) : Prop := ∃ context, Asked server w₀ as (.initializeSession context)

/-- What a task may call. -/
def Backed (as : List (Action x)) : Command → Prop
  | .initializeSession context => Asked server w₀ as (.initializeSession context)
  | .updateKeys keys => Asked server w₀ as (.updateKeys keys)
  | .stopSession false => Asked server w₀ as (.stopSession false)
  | .launchSession | .stopSession true | .setStreamContext .. | .startSession => Launched server w₀ as

/-- Where a task may stand. -/
def TaskBacked (as : List (Action x)) : Task → Prop
  | .calling _ command | .awaiting _ command _ => Backed server w₀ as command
  | .reading | .announcing _ | .replied _ => Launched server w₀ as
  | .answered (.appList _) | .answered (.image _) => ∃ request, FromPaired server w₀ as request
  | _ => True

/-- All that the server does for a session goes back to a paired client: the
session, which has the context that the client has asked for, the keys in a
channel, and where the tasks stand. -/
structure Authorised (as : List (Action x)) (w : World x) : Prop where
  sessions : ∀ s, Present w.sessions s ∨ Taken w.sessions s →
    ∃ context, w.contexts s.keysRx = some context ∧ Asked server w₀ as (.initializeSession context)
  keys : ∀ channel keys, w.sessions.keys channel = some keys →
    (∃ context, context.keys = keys ∧ Asked server w₀ as (.initializeSession context)) ∨
      Asked server w₀ as (.updateKeys keys)
  tasks : ∀ t, TaskBacked server w₀ as (w.tasks t)

end Runs

variable {w₀ w w' : World x} {as : List (Action x)}

theorem FromPaired.append {request : Request} (h : FromPaired server w₀ as request) (a : Action x) :
    FromPaired server w₀ (as ++ [a]) request := by
  obtain ⟨before, t, draws, after, w, rfl, hw, hpaired⟩ := h
  exact ⟨before, t, draws, after ++ [a], w, by simp, hw, hpaired⟩

theorem Asked.append {command : Command} (h : Asked server w₀ as command) (a : Action x) :
    Asked server w₀ (as ++ [a]) command :=
  h.imp fun _ h => ⟨h.1.append a, h.2⟩

theorem Launched.append (h : Launched server w₀ as) (a : Action x) : Launched server w₀ (as ++ [a]) :=
  h.imp fun _ h => h.append a

theorem Backed.append {command : Command} (h : Backed server w₀ as command) (a : Action x) :
    Backed server w₀ (as ++ [a]) command := by
  unfold Backed at h ⊢
  split
  · exact Asked.append h a
  · exact Asked.append h a
  · exact Asked.append h a
  all_goals exact Launched.append h a

theorem TaskBacked.append {task : Task} (h : TaskBacked server w₀ as task) (a : Action x) :
    TaskBacked server w₀ (as ++ [a]) task := by
  unfold TaskBacked at h ⊢
  split
  · exact Backed.append h a
  · exact Backed.append h a
  · exact Launched.append h a
  · exact Launched.append h a
  · exact Launched.append h a
  · exact h.imp fun _ h => h.append a
  · exact h.imp fun _ h => h.append a
  · trivial

/-! ## The invariant -/

/-- A paired client has sent the keys. -/
def Sent (server : Config x) (w₀ : World x) (as : List (Action x)) (keys : SessionKeyData) : Prop :=
  (∃ context, context.keys = keys ∧ Asked server w₀ as (.initializeSession context)) ∨
    Asked server w₀ as (.updateKeys keys)

theorem Sent.append {keys : SessionKeyData} (h : Sent server w₀ as keys) (a : Action x) :
    Sent server w₀ (as ++ [a]) keys :=
  h.imp (fun h => h.imp fun _ h => ⟨h.1, h.2.append a⟩) fun h => h.append a

structure Inv (server : Config x) (w₀ : World x) (as : List (Action x)) (w : World x) : Prop where
  channels : ∀ channel, HoldsChannel w.sessions channel → (w.contexts channel).isSome
  contexts : ∀ channel context, w.contexts channel = some context →
    Asked server w₀ as (.initializeSession context)
  keys : ∀ channel keys, w.sessions.keys channel = some keys → Sent server w₀ as keys
  tasks : ∀ t, TaskBacked server w₀ as (w.tasks t)

theorem Inv.start (server : Config x) (state : PersistentState) (certPem keyPem : x.Pem) :
    Inv server (World.start state certPem keyPem) [] (World.start state certPem keyPem) where
  channels channel h := by
    cases h with
    | present h => cases h
    | taken h =>
      obtain ⟨c, hc⟩ := h
      cases hc
    | initializing h => cases h
  contexts := nofun
  keys := nofun
  tasks _ := trivial

theorem Inv.append (h : Inv server w₀ as w) (a : Action x) : Inv server w₀ (as ++ [a]) w where
  channels := h.channels
  contexts channel context hc := (h.contexts channel context hc).append a
  keys channel keys hk := (h.keys channel keys hk).append a
  tasks t := (h.tasks t).append a

/-- A task moves to where it may stand. -/
theorem Inv.setTask (h : Inv server w₀ as w) (t : TaskId) (task : Task) (htask : TaskBacked server w₀ as task)
    (pairing : Webserver.World x) : Inv server w₀ as { w.setTask t task with pairing } where
  channels := h.channels
  contexts := h.contexts
  keys := h.keys
  tasks t' := by
    show TaskBacked server w₀ as (Function.update w.tasks t task t')
    by_cases ht : t' = t
    · rwa [ht, Function.update_self]
    · rw [Function.update_of_ne ht]
      exact h.tasks t'

/-- The session manager moves, and makes no channel and sends no keys. -/
theorem Inv.of_session (h : Inv server w₀ as w) {sa : SessionManager.Action}
    {sessions : SessionManager.World} (hs : SessionManager.step w.sessions sa = some sessions)
    (hinit : ∀ c keys, sa ≠ .initializeSession c keys) (hupdate : ∀ c keys, sa ≠ .updateKeys c keys)
    (pairing : Webserver.World x) : Inv server w₀ as { w with sessions, pairing } where
  channels channel hc := by
    obtain hc | ⟨-, -, c, data, heq⟩ := holds_of_step hs hc
    · exact h.channels channel hc
    · exact absurd heq (hinit c _)
  contexts := h.contexts
  keys channel keys hk := by
    cases keysMoves_of_step hs with
    | kept hkeys => exact h.keys channel keys (hkeys ▸ hk)
    | opened c data heq => exact absurd heq (hinit c _)
    | replaced c data tx heq => exact absurd heq (hupdate c _)
  tasks := h.tasks

theorem Inv.cancel (h : Inv server w₀ as w) (c : SessionManager.CallId) :
    Inv server w₀ as { w with sessions := w.cancel c } := by
  rw [World.cancel]
  cases hs : SessionManager.step w.sessions (.cancel c) with
  | none => exact h
  | some sessions => exact h.of_session hs nofun nofun w.pairing

theorem action_initializeSession {c c' : SessionManager.CallId} {command : Command} {keys : SessionKeyData}
    (h : command.action c = .initializeSession c' (.keys keys)) :
    ∃ context, command = .initializeSession context ∧ context.keys = keys := by
  cases command with
  | initializeSession context =>
    cases h
    exact ⟨context, rfl, rfl⟩
  | _ => cases h

theorem action_updateKeys {c c' : SessionManager.CallId} {command : Command} {keys : SessionKeyData}
    (h : command.action c = .updateKeys c' keys) : command = .updateKeys keys := by
  cases command with
  | updateKeys keys =>
    cases h
    rfl
  | _ => cases h

/-- A context is that of a channel before, or of the call. -/
theorem contextsAfter_eq_some {sessions : SessionManager.World} {command : Command}
    {channel : SessionManager.KeysChannel} {context : Negotiation.SessionContext}
    (h : w.contextsAfter sessions command channel = some context) :
    w.contexts channel = some context ∨ command = .initializeSession context := by
  unfold World.contextsAfter at h
  split at h
  next context' =>
    split at h
    · exact .inl h
    by_cases hc : channel = w.sessions.nextChannel
    · rw [hc, Function.update_self] at h
      exact .inr (congrArg _ (Option.some.inj h))
    · rw [Function.update_of_ne hc] at h
      exact .inl h
  next => exact .inl h

theorem contextsAfter_isSome {sessions : SessionManager.World} {command : Command}
    {channel : SessionManager.KeysChannel} (h : (w.contexts channel).isSome) :
    (w.contextsAfter sessions command channel).isSome := by
  unfold World.contextsAfter
  split
  next context =>
    split
    · exact h
    by_cases hc : channel = w.sessions.nextChannel
    · rw [hc, Function.update_self]
      rfl
    · rwa [Function.update_of_ne hc]
  next => exact h

/-- A task makes the call that a paired client has asked for. -/
theorem Inv.of_call (h : Inv server w₀ as w) {c : SessionManager.CallId} {command : Command}
    {sessions : SessionManager.World} (hs : SessionManager.step w.sessions (command.action c) = some sessions)
    (hbacked : Backed server w₀ as command) :
    Inv server w₀ as { w with sessions, contexts := w.contextsAfter sessions command } where
  channels channel hc := by
    obtain hc | ⟨rfl, hnext, c', data, heq⟩ := holds_of_step hs hc
    · exact contextsAfter_isSome (h.channels channel hc)
    · obtain ⟨context, rfl, -⟩ := action_initializeSession heq
      show (w.contextsAfter sessions (.initializeSession context) w.sessions.nextChannel).isSome
      rw [World.contextsAfter, if_neg hnext, Function.update_self]
      rfl
  contexts channel context hc := by
    obtain hc | rfl := contextsAfter_eq_some hc
    · exact h.contexts channel context hc
    · exact hbacked
  keys channel keys hk := by
    have hupdate {tx : SessionManager.KeysChannel} {data : SessionKeyData}
        (hkeys : sessions.keys = Function.update w.sessions.keys tx (some data))
        (hsent : Sent server w₀ as data) : Sent server w₀ as keys := by
      rw [hkeys] at hk
      by_cases hc : channel = tx
      · rw [hc, Function.update_self] at hk
        exact Option.some.inj hk ▸ hsent
      · rw [Function.update_of_ne hc] at hk
        exact h.keys channel keys hk
    cases keysMoves_of_step hs with
    | kept hkeys => exact h.keys channel keys (hkeys ▸ hk)
    | opened c' data heq hkeys =>
      obtain ⟨context, rfl, hdata⟩ := action_initializeSession heq
      exact hupdate hkeys (.inl ⟨context, hdata, hbacked⟩)
    | replaced c' data tx heq hkeys =>
      obtain rfl := action_updateKeys heq
      exact hupdate hkeys (.inr hbacked)
  tasks := h.tasks

/-! ## Where a task goes -/

theorem backed_of_asks {request : Request} {command : Command} (h : FromPaired server w₀ as request)
    (hasks : Asks server request command) : Backed server w₀ as command := by
  cases hasks with
  | launch hpath hlaunch => exact ⟨request, h, .launch hpath hlaunch⟩
  | resume hpath hresume => exact ⟨request, h, .resume hpath hresume⟩
  | cancel hpath => exact ⟨request, h, .cancel hpath⟩

theorem answered_backed {response : Response}
    (h : isProtected (.respond response : Handling x) → ∃ request, FromPaired server w₀ as request) :
    TaskBacked server w₀ as (.answered response) := by
  cases response with
  | appList applications => exact h rfl
  | image bytes => exact h rfl
  | _ => trivial

theorem pairingResponse_backed (request : Pairing.Request) (out : Outcome (List Byte)) :
    TaskBacked server w₀ as (pairingResponse request out) := by
  cases out with
  | ok bytes => cases request <;> trivial
  | err => trivial
  | panic => trivial

theorem secretResponse_backed (out : Outcome PUnit) : TaskBacked server w₀ as (secretResponse out) := by
  cases out <;> trivial

theorem finished_backed {host : Option String} {command : Command} (h : Backed server w₀ as command) (ok : Bool) :
    TaskBacked server w₀ as (server.finished host command ok) := by
  cases command with
  | initializeSession context =>
    cases ok with
    | true => exact ⟨context, h⟩
    | false => trivial
  | launchSession =>
    cases ok with
    | true => trivial
    | false => exact h
  | stopSession launchFailed => cases launchFailed <;> cases ok <;> trivial
  | updateKeys keys => cases ok <;> trivial
  | setStreamContext video audio => exact h
  | startSession => exact h

theorem announce_backed (h : Launched server w₀ as) (context : Option Negotiation.SessionContext)
    (sdp : Negotiation.SdpSession) : TaskBacked server w₀ as (server.announce context sdp) := by
  rw [Config.announce]
  split
  · exact h
  · exact h
  · trivial

theorem message_backed {task task' : Task} {message : RtspMessage} (h : TaskBacked server w₀ as task)
    (hs : task.message message = some task') : TaskBacked server w₀ as task' := by
  unfold Task.message at hs
  split at hs
  case h_5 => cases hs
  all_goals
    obtain rfl := Option.some.inj hs
    exact h

/-! ## Steps -/

/-- Where a request first waits. -/
theorem Inv.handle (h : Inv server w₀ as w) {t : TaskId} {host : Option String} {request : Request}
    {draws : Draws} {handling : Handling x} (hgranted : Granted server w.paired request handling)
    (hfrom : IsPaired x w.paired request.connection → FromPaired server w₀ as request)
    (hs : w.handle t host draws handling = some w') : Inv server w₀ as w' := by
  cases handling with
  | respond response =>
    cases hs
    refine h.setTask t _ (answered_backed fun hp => ?_) w.pairing
    cases hgranted with
    | unprotected ho => exact absurd hp (by simp [ho])
    | paired hpaired => exact ⟨request, hfrom hpaired⟩
  | serverInfo uniqueId =>
    cases hs
    exact h.setTask t (.serverInfo uniqueId) trivial w.pairing
  | getServerCert id pem salt =>
    obtain ⟨pairing, -, rfl⟩ := Option.map_eq_some_iff.mp hs
    exact h.setTask t .pairing trivial pairing
  | pairing id r =>
    obtain ⟨pairing, -, rfl⟩ := Option.map_eq_some_iff.mp hs
    exact h.setTask t _ (pairingResponse_backed r _) pairing
  | clientPairingSecret id clientSecret =>
    rw [World.handle] at hs
    obtain ⟨pairing, -, rfl⟩ := Option.map_eq_some_iff.mp hs
    exact h.setTask t _ (secretResponse_backed _) pairing
  | call command =>
    cases hs
    cases hgranted with
    | unprotected ho => cases ho
    | paired hpaired hasks => exact h.setTask t (.calling host command) (backed_of_asks (hfrom hpaired) (hasks command rfl)) w.pairing
  | panic =>
    cases hs
    exact h.setTask t .ended trivial w.pairing

/-- There is a session only after a launch. -/
theorem Inv.launched (h : Inv server w₀ as w) (hsome : w.sessionContext.isSome) : Launched server w₀ as := by
  obtain ⟨context, hcontext⟩ := Option.isSome_iff_exists.mp hsome
  obtain ⟨session, -, hcontext⟩ := Option.bind_eq_some_iff.mp hcontext
  exact ⟨context, h.contexts _ context hcontext⟩

theorem Inv.look (h : Inv server w₀ as w) {t : TaskId} {task : Task}
    (hs : w.look server (w.tasks t) = some task) : TaskBacked server w₀ as task := by
  have hbacked := h.tasks t
  generalize w.tasks t = current at hs hbacked
  cases current with
  | serverInfo uniqueId =>
    cases hs
    trivial
  | connected =>
    obtain rfl := Option.some.inj hs
    split
    next hsome => exact h.launched hsome
    next => trivial
  | announcing sdp =>
    obtain rfl := Option.some.inj hs
    exact announce_backed hbacked _ sdp
  | _ => cases hs

theorem Inv.step (hw : exec (step server) w₀ as = some w) (h : Inv server w₀ as w) {a : Action x}
    (hs : step server w a = some w') : Inv server w₀ (as ++ [a]) w' := by
  have h' := h.append a
  cases a with
  | receive t request draws =>
    rw [Server.step] at hs
    split at hs
    · exact h'.handle (serve_granted w.paired request draws)
        (fun hpaired => ⟨as, t, draws, [], w, rfl, hw, hpaired⟩) hs
    · cases hs
  | accept t =>
    rw [Server.step] at hs
    split at hs <;> cases hs
    exact h'.setTask t .connected trivial w.pairing
  | look t =>
    rw [Server.step] at hs
    split at hs
    · obtain ⟨task, htask, rfl⟩ := Option.map_eq_some_iff.mp hs
      exact h'.setTask t task (h'.look htask) w.pairing
    · cases hs
  | message t message =>
    obtain ⟨task, htask, rfl⟩ := Option.map_eq_some_iff.mp hs
    exact h'.setTask t task (message_backed (h'.tasks t) htask) w.pairing
  | call t c =>
    have hbacked := h'.tasks t
    rw [Server.step] at hs
    split at hs
    next host command htask =>
      rw [htask] at hbacked
      obtain ⟨sessions, hsession, rfl⟩ := Option.map_eq_some_iff.mp hs
      exact (h'.of_call hsession hbacked).setTask t (.awaiting host command c) hbacked w.pairing
    next => cases hs
  | finish t =>
    have hbacked := h'.tasks t
    rw [Server.step] at hs
    split at hs
    next host command c htask =>
      rw [htask] at hbacked
      split at hs <;> cases hs
      exact h'.setTask t _ (finished_backed hbacked _) w.pairing
    next => cases hs
  | timeout t =>
    have hbacked := h'.tasks t
    rw [Server.step] at hs
    split at hs
    next host htask =>
      rw [htask] at hbacked
      cases hs
      exact h'.setTask t (.calling host (.stopSession true)) hbacked w.pairing
    next host c htask =>
      rw [htask] at hbacked
      split at hs <;> cases hs
      exact (h'.cancel c).setTask t (.calling host (.stopSession true)) hbacked w.pairing
    next => cases hs
  | drop t =>
    rw [Server.step] at hs
    split at hs
    case h_5 =>
      obtain ⟨pairing, -, rfl⟩ := Option.map_eq_some_iff.mp hs
      exact h'.setTask t .ended trivial pairing
    case h_6 =>
      cases hs
      exact (h'.cancel _).setTask t .ended trivial w.pairing
    all_goals cases hs
    all_goals exact h'.setTask t .ended trivial w.pairing
  | advance t =>
    obtain ⟨pairing, -, rfl⟩ := Option.map_eq_some_iff.mp hs
    exact ⟨h'.channels, h'.contexts, h'.keys, h'.tasks⟩
  | abort t =>
    obtain ⟨pairing, -, rfl⟩ := Option.map_eq_some_iff.mp hs
    exact ⟨h'.channels, h'.contexts, h'.keys, h'.tasks⟩
  | session a =>
    rw [Server.step] at hs
    split at hs
    next hself =>
      obtain ⟨sessions, hsession, rfl⟩ := Option.map_eq_some_iff.mp hs
      refine h'.of_session hsession ?_ ?_ _
      · rintro c keys rfl
        cases hself
      · rintro c keys rfl
        cases hself
    next => cases hs

/-- Whatever the clients do, and in whatever order. -/
theorem authorised {state : PersistentState} {certPem keyPem : x.Pem} {as : List (Action x)} {w : World x}
    (h : exec (step server) (World.start state certPem keyPem) as = some w) :
    Authorised server (World.start state certPem keyPem) as w := by
  have hinv : Inv server (World.start state certPem keyPem) as w :=
    exec_history (Inv.start server state certPem keyPem) (fun _ _ _ _ hw h hs => Inv.step hw h hs) h
  refine ⟨fun s hs => ?_, hinv.keys, hinv.tasks⟩
  obtain ⟨context, hcontext⟩ := Option.isSome_iff_exists.mp (hinv.channels s.keysRx (hs.elim .present .taken))
  exact ⟨context, hcontext, hinv.contexts _ context hcontext⟩

/-! ## A launch -/

/-- A form without escapes. -/
def parseForm (form : List Byte) : List (String × String) :=
  let text (bytes : List Byte) := String.ofList (bytes.map fun b => Char.ofNat b.toNat)
  (form.splitOn 38).filterMap fun pair => match pair.splitOn 61 with
    | [name, value] => some (text name, text value)
    | _ => none

def utf8 (s : String) : List Byte := s.toUTF8.data.toList

def exampleServer : Config Pairing.exampleCrates where
  enablePairing := true
  rtspPort := 48010
  applications := [1]
  encryptVideo := true
  parseForm := parseForm
  fromUtf8 bytes := if bytes = utf8 "cert" then some .clientCert else none
  boxart := fun _ => none

/-- The launch of a client whose certificate is paired. -/
def exampleLaunch : Request where
  method := .get
  path := "/launch"
  query := some (utf8 "appid=1&mode=1280x720x60&rikey=00ff&rikeyid=5")
  body := some []
  connection := .https (some [Pairing.clientContents])
  host := some "10.0.0.1"

def examplePaired : World Pairing.exampleCrates :=
  World.start ⟨⟨∅, {Pairing.exampleFingerprint}⟩, none⟩ .serverCert .serverKey

/-- The launch, and an RTSP connection up to its `start_session`. -/
def exampleActions : List (Action Pairing.exampleCrates) :=
  [.receive 0 exampleLaunch ⟨none, none, .written, .written⟩, .call 0 0, .session (.initializeReturned 0 true),
    .finish 0, .call 0 1, .session (.launchReturned 1 true), .session (.launchLock 1), .finish 0,
    .accept 1, .look 1, .message 1 .play, .call 1 2]

theorem launched_authorised : ∃ w, exec (step exampleServer) examplePaired exampleActions = some w ∧
    w.sessions.keys 0 = some ⟨[0, 255], 5⟩ ∧ Authorised exampleServer examplePaired exampleActions w := by
  have hrun : (exec (step exampleServer) examplePaired exampleActions).map (fun w => w.sessions.keys 0) =
      some (some ⟨[0, 255], 5⟩) := by
    decide +kernel
  obtain ⟨w, hw, hkeys⟩ := Option.map_eq_some_iff.mp hrun
  exact ⟨w, hw, hkeys, authorised hw⟩

end Moonshine.Proof.Server
