import Moonshine.Proof.Webserver.Authorisation
import Moonshine.Proof.Webserver.PairingRequests

/-!
# What it takes to be paired

What the requests to the server do to the records of pairing is a run of
`Pairing.step` (`manager_run`), so that what holds of its runs holds of the
server. A certificate is among the paired ones only if it was when the state was
loaded, or if pairing is enabled and its record got a PIN from the page for it
(`paired_with_pin`).
-/

namespace Moonshine.Proof.Server

open Moonshine.Framework Moonshine.Impl Moonshine.Impl.Server
open Moonshine.Impl.Pairing (Crates StateData PersistentState ClientManager certPemFingerprint
  verifyClientSignature perform)
open Moonshine.Proof.Pairing

variable {x : Crates} {server : Config x}

/-! ## The calls on the records -/

/-- What a request does to the records. -/
def pairingOf (draws : Draws) : Handling x → Option (Pairing.Action x)
  | .getServerCert id pem salt => some (.startPairing id pem salt)
  | .pairing id request => some (.request id request)
  | .clientPairingSecret id clientSecret =>
    some (.checkClientPairingSecret id clientSecret draws.certSave draws.clientSave)
  | _ => none

/-- The same of an action: what a request does to the records does not depend on who is paired. -/
def pairingAction (server : Config x) : Action x → Option (Pairing.Action x)
  | .receive _ request draws => pairingOf draws (server.serve ⟨∅, ∅⟩ request draws)
  | _ => none

theorem pairingOf_ifPaired {draws : Draws} {handling : Handling x} (h : pairingOf draws handling = none)
    (data : StateData) (peer : Option String) : pairingOf draws (ifPaired data peer handling) = none := by
  rw [ifPaired]
  split
  · rfl
  · exact h

theorem pairingOf_respondTo (draws : Draws) (out : Outcome Response) :
    pairingOf draws (Config.respondTo out : Handling x) = none := by
  cases out <;> rfl

theorem pairingOf_launch (draws : Draws) (params : Params) : pairingOf draws (server.launch params) = none := by
  rw [Config.launch]
  split <;> rfl

theorem pairingOf_resume (draws : Draws) (params : Params) :
    pairingOf draws (Config.resume params : Handling x) = none := by
  rw [Config.resume]
  split <;> rfl

theorem pairingOf_serve (data data' : StateData) (request : Request) (draws : Draws) :
    pairingOf draws (server.serve data request draws) = pairingOf draws (server.serve data' request draws) := by
  have hpaired {handling : Handling x} (h : pairingOf draws handling = none) (peer : Option String) :
      pairingOf draws (ifPaired data peer handling) = pairingOf draws (ifPaired data' peer handling) := by
    rw [pairingOf_ifPaired h, pairingOf_ifPaired h]
  rw [Config.serve, Config.serve]
  split
  case h_2 => rfl
  rw [Config.serveHttps, Config.serveHttps]
  split
  · rfl
  split
  · exact hpaired rfl _
  split
  · exact hpaired (pairingOf_respondTo draws _) _
  split
  · rfl
  split
  · rfl
  split
  · exact hpaired (pairingOf_launch draws _) _
  split
  · exact hpaired (pairingOf_resume draws _) _
  split
  · exact hpaired rfl _
  · rfl

/-! ## The records -/

/-- The records after a call on them, if there is one. -/
def performed (m : ClientManager x) : Option (Pairing.Action x) → ClientManager x
  | some act => (perform act m).2
  | none => m

theorem manager_of_request {w w' : Webserver.World x} {id : String} {request : Pairing.Request}
    (hs : Webserver.step w (.request id request) = some w') :
    w'.manager = (perform (.request id request) w.manager).2 := by
  rw [perform_request]
  cases request <;> exact (congrArg Webserver.World.manager (Option.some.inj hs)).symm

theorem manager_of_getServerCert {w w' : Webserver.World x} {t : TaskId} {id : String} {pem : x.Pem}
    {salt : List Byte} (hs : Webserver.step w (.getServerCert t id pem salt) = some w') :
    w'.manager = (perform (.startPairing id pem salt) w.manager).2 := by
  rw [Webserver.step] at hs
  split at hs <;> cases hs
  rfl

theorem manager_of_handle {w w' : World x} {t : TaskId} {host : Option String} {draws : Draws}
    {handling : Handling x} (hs : w.handle t host draws handling = some w') :
    w'.pairing.manager = performed w.pairing.manager (pairingOf draws handling) := by
  cases handling with
  | getServerCert id pem salt =>
    rw [World.handle] at hs
    obtain ⟨pairing, hpairing, rfl⟩ := Option.map_eq_some_iff.mp hs
    exact manager_of_getServerCert hpairing
  | pairing id request =>
    rw [World.handle] at hs
    obtain ⟨pairing, hpairing, rfl⟩ := Option.map_eq_some_iff.mp hs
    exact manager_of_request hpairing
  | clientPairingSecret id clientSecret =>
    cases hs
    rfl
  | _ =>
    cases hs
    rfl

theorem manager_of_advance {w w' : Webserver.World x} {t : TaskId}
    (hs : Webserver.step w (.advance t) = some w') : w'.manager = w.manager := by
  rw [Webserver.step, Webserver.advance] at hs
  split at hs <;> cases hs <;> rfl

theorem manager_of_abort {w w' : Webserver.World x} {t : TaskId}
    (hs : Webserver.step w (.abort t) = some w') : w'.manager = w.manager := by
  rw [Webserver.step] at hs
  split at hs <;> cases hs
  rfl

theorem manager_of_drop {w w' : Webserver.World x} {t : TaskId}
    (hs : Webserver.step w (.drop t) = some w') : w'.manager = w.manager := by
  rw [Webserver.step] at hs
  split at hs <;> cases hs
  rfl

theorem manager_of_step {w w' : World x} {a : Action x} (hs : step server w a = some w') :
    w'.pairing.manager = performed w.pairing.manager (pairingAction server a) := by
  cases a with
  | receive t request draws =>
    rw [Server.step] at hs
    split at hs
    · rw [manager_of_handle hs, pairingAction, pairingOf_serve w.paired]
    · cases hs
  | accept t =>
    rw [Server.step] at hs
    split at hs <;> cases hs
    rfl
  | look t =>
    rw [Server.step] at hs
    split at hs
    · obtain ⟨task, -, rfl⟩ := Option.map_eq_some_iff.mp hs
      rfl
    · cases hs
  | message t message =>
    obtain ⟨task, -, rfl⟩ := Option.map_eq_some_iff.mp hs
    rfl
  | call t c =>
    rw [Server.step] at hs
    split at hs
    · obtain ⟨sessions, -, rfl⟩ := Option.map_eq_some_iff.mp hs
      rfl
    · cases hs
  | finish t =>
    rw [Server.step] at hs
    split at hs
    · split at hs <;> cases hs
      rfl
    · cases hs
  | timeout t =>
    rw [Server.step] at hs
    split at hs
    · cases hs
      rfl
    · split at hs <;> cases hs
      rfl
    · cases hs
  | drop t =>
    rw [Server.step] at hs
    split at hs
    case h_5 =>
      obtain ⟨pairing, hpairing, rfl⟩ := Option.map_eq_some_iff.mp hs
      exact manager_of_drop hpairing
    all_goals cases hs
    all_goals rfl
  | advance t =>
    obtain ⟨pairing, hpairing, rfl⟩ := Option.map_eq_some_iff.mp hs
    exact manager_of_advance hpairing
  | abort t =>
    obtain ⟨pairing, hpairing, rfl⟩ := Option.map_eq_some_iff.mp hs
    exact manager_of_abort hpairing
  | session a =>
    rw [Server.step] at hs
    split at hs
    · obtain ⟨sessions, -, rfl⟩ := Option.map_eq_some_iff.mp hs
      rfl
    · cases hs

/-- What the server does to the records is a run of the calls on them. -/
theorem manager_run {state : PersistentState} {certPem keyPem : x.Pem} {as : List (Action x)} {w : World x}
    (h : exec (step server) (World.start state certPem keyPem) as = some w) :
    ∃ p, exec Pairing.step (Pairing.World.start state certPem keyPem) (as.filterMap (pairingAction server)) =
      some p ∧ p.manager = w.pairing.manager := by
  have hstart : (Pairing.World.start state certPem keyPem).manager =
      (World.start state certPem keyPem).pairing.manager := rfl
  refine exec_simulates (R := fun w (p : Pairing.World x) => p.manager = w.pairing.manager) ?_ ?_ hstart h
  · intro w a w' p hR hs hg
    rw [manager_of_step hs, hg]
    exact hR
  · intro w a w' p act hR hs hg
    refine ⟨_, rfl, ?_⟩
    rw [manager_of_step hs, hg, ← hR]
    rfl

/-! ## The PIN -/

/-- In the run, a record of the certificate was made and confirmed by its secret,
and got a PIN in between. -/
def Pinned (acts : List (Pairing.Action x)) (fingerprint : String) : Prop :=
  ∃ id pem salt before since clientSecret certSave clientSave after,
    acts = before ++ .startPairing id pem salt ::
      (since ++ .checkClientPairingSecret id clientSecret certSave clientSave :: after) ∧
    (∀ pem' salt', .startPairing id pem' salt' ∉ since) ∧ (∃ pin, .request id (.registerPin pin) ∈ since) ∧
    certPemFingerprint x pem = some fingerprint ∧
    verifyClientSignature x pem (clientSecret.take 16) (clientSecret.drop 16) = .ok ⟨⟩

theorem Pinned.append {acts : List (Pairing.Action x)} {fingerprint : String} (h : Pinned acts fingerprint)
    (act : Pairing.Action x) : Pinned (acts ++ [act]) fingerprint := by
  obtain ⟨id, pem, salt, before, since, clientSecret, certSave, clientSave, after, rfl, h⟩ := h
  exact ⟨id, pem, salt, before, since, clientSecret, certSave, clientSave, after ++ [act], by simp, h⟩

theorem mem_requestsFor {id : String} {acts : List (Pairing.Action x)} {request : Pairing.Request}
    (h : request ∈ requestsFor id acts) : .request id request ∈ acts := by
  obtain ⟨act, hact, hsome⟩ := List.mem_filterMap.mp h
  match act, hsome with
  | .request id' r, hsome =>
    simp only at hsome
    split at hsome
    next hid =>
      obtain rfl := Option.some.inj hsome
      rwa [hid]
    next => cases hsome
  | .startPairing .., hsome => cases hsome
  | .checkClientPairingSecret .., hsome => cases hsome

/-- A check that succeeds confirms a record with a PIN. -/
theorem pinned_of_verify {state : PersistentState} {certPem keyPem : x.Pem} {acts : List (Pairing.Action x)}
    {w : Pairing.World x} (h : exec Pairing.step (Pairing.World.start state certPem keyPem) acts = some w)
    {id : String} {c : Pairing.PendingClient x} (hc : w.manager.pendingClients.get? id = some c)
    {clientSecret : List Byte} (hverify : c.verifyPairingSecret clientSecret = .ok ⟨⟩)
    {fingerprint : String} (hfingerprint : certPemFingerprint x c.pem = some fingerprint)
    (certSave clientSave : Pairing.SaveResult) :
    Pinned (acts ++ [.checkClientPairingSecret id clientSecret certSave clientSave]) fingerprint := by
  have hrecorded : Recorded certPem keyPem w := exec_inv recorded_step (recorded_start ..) h
  obtain ⟨a, ha, hrecord⟩ := Option.map_eq_some_iff.mp ((hrecorded.records id).symm.trans hc)
  obtain ⟨before, since, htrace, hnone, hrequests⟩ := began_of_attempt ha
  rw [trace_exec h] at htrace
  have hmade := made_replay certPem keyPem id a.pem a.salt a.requests
  rw [← Attempt.record, hrecord] at hmade
  obtain ⟨challenge, signature, hchallenge, -, -, -, hrsa⟩ := verifyPairingSecret_eq_ok hverify
  obtain ⟨key, hkey⟩ := Option.isSome_iff_exists.mp (hmade.challenge challenge hchallenge).1
  obtain ⟨pin, hpin, -⟩ := hmade.key key hkey
  rw [hmade.pem] at hfingerprint hrsa
  rw [hrequests] at hpin
  refine ⟨id, a.pem, a.salt, before, since, clientSecret, certSave, clientSave, [], ?_, hnone,
    ⟨pin, mem_requestsFor hpin⟩, hfingerprint, hrsa⟩
  rw [show acts = before ++ .startPairing id a.pem a.salt :: since from htrace]
  simp

theorem pinned_of_paired {state : PersistentState} {certPem keyPem : x.Pem} {acts : List (Pairing.Action x)}
    {w : Pairing.World x} (h : exec Pairing.step (Pairing.World.start state certPem keyPem) acts = some w)
    (fingerprint : String) (hfp : fingerprint ∈ w.manager.state.data.pairedCerts) :
    fingerprint ∈ state.data.pairedCerts ∨ Pinned acts fingerprint := by
  revert hfp
  refine exec_history (P := fun acts w => fingerprint ∈ w.manager.state.data.pairedCerts →
    fingerprint ∈ state.data.pairedCerts ∨ Pinned acts fingerprint) .inl ?_ h
  intro acts w act w' hw ih hs hfp
  have hold (h : fingerprint ∈ w.manager.state.data.pairedCerts) :
      fingerprint ∈ state.data.pairedCerts ∨ Pinned (acts ++ [act]) fingerprint :=
    (ih h).imp_right fun h => h.append act
  rw [← Option.some.inj hs] at hfp
  match act with
  | .startPairing id pem salt => exact hold hfp
  | .request id r =>
    obtain ⟨records, hothers⟩ := serve_others w.manager id r
    rw [perform_request, hothers] at hfp
    exact hold hfp
  | .checkClientPairingSecret id clientSecret certSave clientSave =>
    rcases check_persisted w.manager id clientSecret certSave clientSave with
      ⟨-, heq⟩ | ⟨c, hc, hverify, hpersisted⟩
    · exact hold (heq ▸ hfp)
    · rcases hpersisted.certs fingerprint hfp with hmem | hcert
      · exact hold hmem
      · exact .inr (pinned_of_verify hw hc hverify hcert certSave clientSave)

/-! ## The page -/

theorem pairingOf_ifPairing {draws : Draws} {handling : Handling x} {act : Pairing.Action x}
    (h : pairingOf draws (server.ifPairing handling) = some act) :
    server.enablePairing ∧ pairingOf draws handling = some act := by
  rw [Config.ifPairing] at h
  split at h
  next henabled => exact ⟨henabled, h⟩
  next => cases h

theorem PairHandling.not_registerPin {handling : Handling x} (h : PairHandling handling) (draws : Draws) (id : String)
    (pin : List Byte) : pairingOf draws handling ≠ some (.request id (.registerPin pin)) := by
  cases h <;> nofun

/-- Only while pairing is enabled does a request touch the records, and a PIN comes from the page for it. -/
theorem serve_pairing {request : Request} {draws : Draws} {act : Pairing.Action x}
    (h : pairingOf draws (server.serve ⟨∅, ∅⟩ request draws) = some act) : server.enablePairing ∧
      ∀ id pin, act = .request id (.registerPin pin) →
        request.connection = .http ∧ request.method = .post ∧ request.path = "/submit-pin" := by
  have hpair (h : pairingOf draws (server.ifPairing (server.handlePairRequest (server.params request) draws)) =
      some act) : server.enablePairing ∧ ∀ id pin, act = .request id (.registerPin pin) →
        request.connection = .http ∧ request.method = .post ∧ request.path = "/submit-pin" := by
    obtain ⟨henabled, h⟩ := pairingOf_ifPairing h
    refine ⟨henabled, fun id pin hact => ?_⟩
    exact absurd (hact ▸ h) ((handlePairRequest_handling _ draws).not_registerPin draws id pin)
  rw [Config.serve] at h
  split at h
  next =>
    have hno {handling : Handling x} (hnone : pairingOf draws handling = none) {peer : Option String}
        (h : pairingOf draws (ifPaired ⟨∅, ∅⟩ peer handling) = some act) : False := by
      rw [pairingOf_ifPaired hnone] at h
      cases h
    rw [Config.serveHttps] at h
    split at h
    · cases h
    split at h
    · exact (hno rfl h).elim
    split at h
    · exact (hno (pairingOf_respondTo draws _) h).elim
    split at h
    · exact hpair h
    split at h
    · cases h
    split at h
    · exact (hno (pairingOf_launch draws _) h).elim
    split at h
    · exact (hno (pairingOf_resume draws _) h).elim
    split at h
    · exact (hno rfl h).elim
    · cases h
  next hconnection =>
    rw [Config.serveHttp] at h
    split at h
    · cases h
    split at h
    · exact hpair h
    split at h
    · obtain ⟨-, h⟩ := pairingOf_ifPairing h
      cases h
    split at h
    next hroute =>
      obtain ⟨henabled, -⟩ := pairingOf_ifPairing h
      exact ⟨henabled, fun _ _ _ => ⟨hconnection, congrArg Prod.fst hroute, congrArg Prod.snd hroute⟩⟩
    split at h <;> cases h

/-- Of a record of the certificate, in the run: the request that made it, the PIN
from the page for it, and the secret that confirmed it, with no other record of
its id in between. -/
def PairedOver (server : Config x) (as : List (Action x)) (fingerprint : String) : Prop :=
  ∃ id pem salt clientSecret certSave clientSave before start since confirm after,
    as = before ++ start :: (since ++ confirm :: after) ∧
    pairingAction server start = some (.startPairing id pem salt) ∧
    certPemFingerprint x pem = some fingerprint ∧
    pairingAction server confirm = some (.checkClientPairingSecret id clientSecret certSave clientSave) ∧
    verifyClientSignature x pem (clientSecret.take 16) (clientSecret.drop 16) = .ok ⟨⟩ ∧
    (∀ a ∈ since, ∀ pem' salt', pairingAction server a ≠ some (.startPairing id pem' salt')) ∧
    ∃ t request draws pin, .receive t request draws ∈ since ∧
      pairingAction server (.receive t request draws) = some (.request id (.registerPin pin)) ∧
      request.connection = .http ∧ request.method = .post ∧ request.path = "/submit-pin"

theorem receive_of_pairingAction {a : Action x} {act : Pairing.Action x} (h : pairingAction server a = some act) :
    ∃ t request draws, a = .receive t request draws ∧
      pairingOf draws (server.serve ⟨∅, ∅⟩ request draws) = some act := by
  cases a with
  | receive t request draws => exact ⟨t, request, draws, rfl, h⟩
  | _ => cases h

/-- A certificate is paired since the start, or through the PIN. -/
theorem paired_with_pin {state : PersistentState} {certPem keyPem : x.Pem} {as : List (Action x)} {w : World x}
    (h : exec (step server) (World.start state certPem keyPem) as = some w) {fingerprint : String}
    (hfp : fingerprint ∈ w.paired.pairedCerts) :
    fingerprint ∈ state.data.pairedCerts ∨ (server.enablePairing ∧ PairedOver server as fingerprint) := by
  obtain ⟨p, hp, hmanager⟩ := manager_run h
  refine (pinned_of_paired hp fingerprint (hmanager ▸ hfp)).imp_right fun hpinned => ?_
  obtain ⟨id, pem, salt, before, since, clientSecret, certSave, clientSave, after, hacts, hnone, ⟨pin, hpin⟩,
    hfingerprint, hverify⟩ := hpinned
  obtain ⟨before', rest, rfl, -, hrest⟩ := List.filterMap_eq_append_iff.mp hacts
  obtain ⟨skipped, start, rest, rfl, -, hstart, hrest⟩ := List.filterMap_eq_cons_iff.mp hrest
  obtain ⟨since', rest, rfl, hsince, hrest⟩ := List.filterMap_eq_append_iff.mp hrest
  obtain ⟨skipped', confirm, after', rfl, hskipped', hconfirm, -⟩ := List.filterMap_eq_cons_iff.mp hrest
  have hmem (a : Action x) (act : Pairing.Action x) (ha : a ∈ since' ++ skipped')
      (hact : pairingAction server a = some act) : act ∈ since := by
    rcases List.mem_append.mp ha with ha | ha
    · rw [← hsince]
      exact List.mem_filterMap.mpr ⟨a, ha, hact⟩
    · rw [hskipped' a ha] at hact
      cases hact
  rw [← hsince] at hpin
  obtain ⟨a, ha, hact⟩ := List.mem_filterMap.mp hpin
  obtain ⟨t, request, draws, rfl, hserve⟩ := receive_of_pairingAction hact
  obtain ⟨henabled, hpage⟩ := serve_pairing hserve
  refine ⟨henabled, id, pem, salt, clientSecret, certSave, clientSave, before' ++ skipped, start,
    since' ++ skipped', confirm, after', by simp, hstart, hfingerprint, hconfirm, hverify, ?_, ?_⟩
  · exact fun a ha pem' salt' hact => hnone pem' salt' (hmem a _ ha hact)
  · exact ⟨t, request, draws, pin, List.mem_append_left _ ha, hact, hpage id pin rfl⟩

/-! ## A pairing -/

/-- A request without a body. -/
def pairRequest (query : List Byte) : Request where
  method := .get
  path := "/pair"
  query := some query
  body := some []
  connection := .http
  host := some "10.0.0.1"

def pinRequest : Request where
  method := .post
  path := "/submit-pin"
  query := none
  body := some (utf8 "uniqueid=a&pin=1234")
  connection := .http
  host := some "10.0.0.1"

def examplePairingSecret : List Byte := exampleClientSecret ++ clientSecretSignature

/-- The form with the secret in hexadecimal. -/
def secretForm : List Byte :=
  utf8 "uniqueid=a&clientpairingsecret=" ++ examplePairingSecret.flatMap fun b =>
    [UInt8.ofNat (Nat.digitChar (b.toNat / 16)).toNat, UInt8.ofNat (Nat.digitChar (b.toNat % 16)).toNat]

def pairingServer : Config exampleCrates :=
  { exampleServer with
    parseForm := fun form =>
      if form = secretForm then [("uniqueid", "a"), ("clientpairingsecret", Pairing.hexEncode examplePairingSecret)]
      else parseForm form }

def exampleDraws : Draws := ⟨some exampleServerSecret, some exampleServerChallenge, .written, .written⟩

/-- The requests up to the last. -/
def pairingActions : List (Action exampleCrates) :=
  [.receive 0 (pairRequest (utf8 ("phrase=getservercert&uniqueid=a&clientcert=63657274&salt=" ++
      Pairing.hexEncode exampleSalt))) exampleDraws,
    .receive 1 pinRequest exampleDraws,
    .receive 2 (pairRequest (utf8 ("uniqueid=a&clientchallenge=" ++ Pairing.hexEncode exampleChallenge)))
      exampleDraws,
    .receive 3 (pairRequest (utf8 ("uniqueid=a&serverchallengeresp=" ++ Pairing.hexEncode exampleResponse)))
      exampleDraws]

def exampleUnpaired : World exampleCrates := World.start ⟨⟨∅, ∅⟩, none⟩ .serverCert .serverKey

theorem serve_getServerCert (data : StateData) :
    pairingServer.serve data (pairRequest (utf8 ("phrase=getservercert&uniqueid=a&clientcert=63657274&salt=" ++
      Pairing.hexEncode exampleSalt))) exampleDraws = .getServerCert "a" .clientCert exampleSalt := by
  have hparams : pairingServer.params (pairRequest (utf8 ("phrase=getservercert&uniqueid=a&clientcert=63657274&salt=" ++
      Pairing.hexEncode exampleSalt))) = collect [("phrase", "getservercert"), ("uniqueid", "a"),
        ("clientcert", Pairing.hexEncode (utf8 "cert")), ("salt", Pairing.hexEncode exampleSalt)] := by
    refine congrArg collect ?_
    decide +kernel
  rw [serve_pair rfl rfl, hparams]
  refine getServerCert_of_params ?_ ?_ ?_ (if_pos rfl) ?_ rfl <;> simp [get?_collect]

theorem serve_pinRequest (data : StateData) :
    pairingServer.serve data pinRequest exampleDraws = .pairing "a" (.registerPin examplePin) := by
  have hparse : pairingServer.parseForm (utf8 "uniqueid=a&pin=1234") = [("uniqueid", "a"), ("pin", "1234")] := by
    decide +kernel
  have hlength : (utf8 "uniqueid=a&pin=1234").length ≤ 1024 := by decide
  have hpin : "1234".toByteArray.data.toList = examplePin := by decide
  show pairingServer.serveHttp pinRequest exampleDraws = _
  have hroute : (pinRequest.method, pinRequest.path) = (.post, "/submit-pin") := rfl
  have henabled : pairingServer.enablePairing = true := rfl
  rw [Config.serveHttp, hroute, if_neg (by decide), if_neg (by decide), if_neg (by decide), if_pos rfl,
    Config.ifPairing, if_pos henabled, Config.submitPin]
  have hbody : pinRequest.body.filter (fun body => body.length ≤ 1024) = some (utf8 "uniqueid=a&pin=1234") :=
    Option.filter_some_pos (decide_eq_true hlength)
  rw [hbody]
  simp [hparse, hpin, get?_collect]

theorem serve_clientChallenge (data : StateData) :
    pairingServer.serve data (pairRequest (utf8 ("uniqueid=a&clientchallenge=" ++
      Pairing.hexEncode exampleChallenge))) exampleDraws =
        .pairing "a" (.clientChallenge exampleChallenge (some exampleServerSecret) (some exampleServerChallenge)) := by
  have hparams : pairingServer.params (pairRequest (utf8 ("uniqueid=a&clientchallenge=" ++
      Pairing.hexEncode exampleChallenge))) = collect
        [("uniqueid", "a"), ("clientchallenge", Pairing.hexEncode exampleChallenge)] := by
    refine congrArg collect ?_
    decide +kernel
  rw [serve_pair rfl rfl, hparams]
  exact clientChallenge_of_params (by simp [get?_collect]) (by simp [get?_collect]) (by simp [get?_collect])

theorem serve_serverChallengeResponse (data : StateData) :
    pairingServer.serve data (pairRequest (utf8 ("uniqueid=a&serverchallengeresp=" ++
      Pairing.hexEncode exampleResponse))) exampleDraws = .pairing "a" (.serverChallengeResponse exampleResponse) := by
  have hparams : pairingServer.params (pairRequest (utf8 ("uniqueid=a&serverchallengeresp=" ++
      Pairing.hexEncode exampleResponse))) = collect
        [("uniqueid", "a"), ("serverchallengeresp", Pairing.hexEncode exampleResponse)] := by
    refine congrArg collect ?_
    decide +kernel
  rw [serve_pair rfl rfl, hparams]
  refine serverChallengeResponse_of_params ?_ ?_ ?_ ?_ <;> simp [get?_collect, mem_collect]

theorem serve_secretForm (data : StateData) :
    pairingServer.serve data (pairRequest secretForm) exampleDraws =
      .clientPairingSecret "a" examplePairingSecret := by
  have hparams : pairingServer.params (pairRequest secretForm) = collect
      [("uniqueid", "a"), ("clientpairingsecret", Pairing.hexEncode examplePairingSecret)] := by
    show collect (pairingServer.parseForm secretForm) = _
    simp only [pairingServer, if_pos]
  rw [serve_pair rfl rfl, hparams]
  refine clientPairingSecret_of_params ?_ ?_ ?_ ?_ ?_ <;> simp [get?_collect, mem_collect]

/-- An idle task that takes a request comes to where it is handled. -/
theorem step_receive {w w' : World x} {t : TaskId} {request : Request} {draws : Draws} {handling : Handling x}
    (htask : w.tasks t = .idle) (hserve : server.serve w.paired request draws = handling)
    (hs : w.handle t request.host draws handling = some w') : step server w (.receive t request draws) = some w' := by
  rw [Server.step, htask, hserve]
  exact hs

theorem pairingAction_receive (t : TaskId) {request : Request} {draws : Draws} {handling : Handling x}
    {act : Pairing.Action x} (hserve : server.serve ⟨∅, ∅⟩ request draws = handling)
    (hact : pairingOf draws handling = some act) : pairingAction server (.receive t request draws) = some act := by
  rw [pairingAction, hserve, hact]

theorem pairingActions_paired : ∃ w, exec (step pairingServer) exampleUnpaired
      (pairingActions ++ [.receive 4 (pairRequest secretForm) exampleDraws]) = some w ∧
    (exampleFingerprint ∈ (∅ : Finset String) ∨ (pairingServer.enablePairing ∧ PairedOver pairingServer
      (pairingActions ++ [.receive 4 (pairRequest secretForm) exampleDraws]) exampleFingerprint)) := by
  obtain ⟨w₁, w₂, w₃, w₄, w₅, h₁, h₂, h₃, h₄, h₅, ht₁, ht₂, ht₃, ht₄⟩ : ∃ w₁ w₂ w₃ w₄ w₅ : World exampleCrates,
      exampleUnpaired.handle 0 (some "10.0.0.1") exampleDraws (.getServerCert "a" .clientCert exampleSalt) = some w₁ ∧
      w₁.handle 1 (some "10.0.0.1") exampleDraws (.pairing "a" (.registerPin examplePin)) = some w₂ ∧
      w₂.handle 2 (some "10.0.0.1") exampleDraws (.pairing "a" (.clientChallenge exampleChallenge
        (some exampleServerSecret) (some exampleServerChallenge))) = some w₃ ∧
      w₃.handle 3 (some "10.0.0.1") exampleDraws (.pairing "a" (.serverChallengeResponse exampleResponse)) =
        some w₄ ∧
      w₄.handle 4 (some "10.0.0.1") exampleDraws (.clientPairingSecret "a" examplePairingSecret) = some w₅ ∧
      w₁.tasks 1 = .idle ∧ w₂.tasks 2 = .idle ∧ w₃.tasks 3 = .idle ∧ w₄.tasks 4 = .idle :=
    ⟨_, _, _, _, _, rfl, rfl, rfl, rfl, rfl, rfl, rfl, rfl, rfl⟩
  have hrun : exec (step pairingServer) exampleUnpaired
      (pairingActions ++ [.receive 4 (pairRequest secretForm) exampleDraws]) = some w₅ := by
    refine exec_cons.mpr ⟨w₁, step_receive rfl (serve_getServerCert _) h₁, exec_cons.mpr ⟨w₂,
      step_receive ht₁ (serve_pinRequest _) h₂, exec_cons.mpr ⟨w₃, step_receive ht₂ (serve_clientChallenge _) h₃,
      exec_cons.mpr ⟨w₄, step_receive ht₃ (serve_serverChallengeResponse _) h₄, exec_cons.mpr ⟨w₅,
      step_receive ht₄ (serve_secretForm _) h₅, rfl⟩⟩⟩⟩⟩
  have hactions : (pairingActions ++ [Action.receive 4 (pairRequest secretForm) exampleDraws]).filterMap
      (pairingAction pairingServer) = exampleRun ++ [exampleCheck] := by
    rw [List.filterMap_append, pairingActions,
      List.filterMap_cons_some (pairingAction_receive 0 (serve_getServerCert _) rfl),
      List.filterMap_cons_some (pairingAction_receive 1 (serve_pinRequest _) rfl),
      List.filterMap_cons_some (pairingAction_receive 2 (serve_clientChallenge _) rfl),
      List.filterMap_cons_some (pairingAction_receive 3 (serve_serverChallengeResponse _) rfl),
      List.filterMap_cons_some (pairingAction_receive 4 (serve_secretForm _) rfl),
      List.filterMap_nil]
    rfl
  obtain ⟨p, hp, hmanager⟩ := manager_run hrun
  rw [hactions] at hp
  obtain ⟨w, hw, hs⟩ := exec_append_singleton.mp hp
  obtain ⟨w', hw', hcerts⟩ := Option.map_eq_some_iff.mp exampleRun_pairs
  obtain rfl := Option.some.inj (hw.symm.trans hw')
  obtain rfl := Option.some.inj hs
  refine ⟨w₅, hrun, paired_with_pin hrun ?_⟩
  show exampleFingerprint ∈ w₅.pairing.manager.state.data.pairedCerts
  rw [← hmanager]
  exact of_decide_eq_true (Prod.mk.inj hcerts).2

end Moonshine.Proof.Server
