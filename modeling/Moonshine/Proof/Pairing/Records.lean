import Moonshine.Framework.Run
import Moonshine.Impl.Pairing.Clients

/-!
# Where the records of pairing come from

A record is what the requests for its id, since the last `start_pairing` of that
id, made of a new one (`records`). What a request can do to a record is said
once (`Served`), so that an invariant of the records is an invariant of `Served`
(`replay_inv`).
-/

namespace Moonshine.Proof.Pairing

open Moonshine.Framework Moonshine.Impl Moonshine.Impl.Pairing

variable {x : Crates} {certPem keyPem : x.Pem}

/-! ## One request -/

/-- The challenge that a request generates, on a record with a key or without. -/
def generated (certPem : x.Pem) (pinned : Bool) : Request → Option (List Byte)
  | .registerPin _ | .serverChallengeResponse _ => none
  | .clientChallenge challenge serverSecret serverChallenge =>
    if pinned ∧ challenge.length % 16 = 0 ∧ serverSecret.isSome ∧
        ((x.parseX509Pem certPem).bind x.parseX509).isSome then serverChallenge
    else none

theorem pinned_of_generated {pinned : Bool} {r : Request} {challenge : List Byte}
    (h : generated certPem pinned r = some challenge) : pinned := by
  cases r with
  | registerPin pin => simp [generated] at h
  | serverChallengeResponse response => simp [generated] at h
  | clientChallenge data secret serverChallenge =>
    rw [generated] at h
    split at h
    next hgen => exact hgen.1
    next => simp at h

/-- What a request can make of the record `c`. -/
inductive Served (certPem : x.Pem) (c : PendingClient x) : Request → PendingClient x → Prop
  | registered (pin : List Byte) : Served certPem c (.registerPin pin)
      { c with key := some (createKey x c.salt pin), history := c.history ++ [.pinRegistered] }
  | failed {data : List Byte} {secret challenge : Option (List Byte)}
      (hno : generated certPem c.key.isSome (.clientChallenge data secret challenge) = none)
      (kept : Option (List Byte)) :
      Served certPem c (.clientChallenge data secret challenge) { c with serverSecret := kept }
  | generated {data secret challenge : List Byte}
      (hgen : generated certPem c.key.isSome (.clientChallenge data (some secret) (some challenge)) =
        some challenge) :
      Served certPem c (.clientChallenge data (some secret) (some challenge))
        { c with serverSecret := some secret, serverChallenge := some challenge,
                 history := c.history ++ [.challengeGenerated challenge] }
  | refused {response : List Byte} (hno : ¬ (c.key.isSome ∧ response.length % 16 = 0)) :
      Served certPem c (.serverChallengeResponse response)
        { c with history := c.history ++ [.responseRefused] }
  | stored {response decrypted : List Byte} (hkey : c.key.isSome) (hwhole : response.length % 16 = 0)
      (hdecrypted : c.decryptResponse response = .ok decrypted) (returned : List RecordEvent)
      (hreturned : ∀ e ∈ returned, ∃ secret,
        c.serverSecret = some secret ∧ e = .secretReturned secret) :
      Served certPem c (.serverChallengeResponse response)
        { c with clientHash := some decrypted, history := c.history ++ .hashStored decrypted :: returned }

theorem extractCertificateSignature_eq (pem : x.Pem) : extractCertificateSignature x pem =
    Outcome.ofOption (((x.parseX509Pem pem).bind x.parseX509).map X509Certificate.signatureValue) := by
  rw [extractCertificateSignature]
  cases x.parseX509Pem pem with
  | none => rfl
  | some contents =>
    simp only [Outcome.ofOption_some, Outcome.ok_bind, Option.bind_some]
    cases x.parseX509 contents <;> rfl

theorem clientChallenge_served (c : PendingClient x) (data : List Byte)
    (secret challenge : Option (List Byte)) : Served certPem c (.clientChallenge data secret challenge)
      (PendingClient.clientChallenge certPem data secret challenge c).2 := by
  obtain ⟨id, pem, salt, _ | key, serverSecret, serverChallenge, clientHash, history⟩ := c
  · exact .failed (if_neg (by simp)) serverSecret
  obtain _ | secret := secret
  · exact .failed (if_neg (by simp)) serverSecret
  simp only [PendingClient.clientChallenge, Prog.gets_bind, Outcome.ofOption_some,
    Prog.liftM_bind_ok, Prog.modify_bind, extractCertificateSignature_eq, aesDecryptEcb]
  by_cases hdata : data.length % 16 = 0
  · rw [if_pos hdata, Prog.liftM_bind_ok]
    cases hcert : (x.parseX509Pem certPem).bind x.parseX509 with
    | none => exact .failed (if_neg (by simp [hcert])) (some secret)
    | some certificate =>
      obtain _ | challenge := challenge
      · refine .failed ?_ (some secret)
        simp only [generated, ite_self]
      · exact .generated (if_pos ⟨rfl, hdata, rfl, by rw [hcert]; rfl⟩)
  · rw [if_neg hdata]
    exact .failed (if_neg (by simp [hdata])) (some secret)

theorem decryptResponse_of_whole {c : PendingClient x} {response : List Byte} (hkey : c.key.isSome)
    (hwhole : response.length % 16 = 0) : ∃ decrypted, c.decryptResponse response = .ok decrypted := by
  obtain ⟨key, hkey⟩ := Option.isSome_iff_exists.mp hkey
  rw [PendingClient.decryptResponse, hkey, Outcome.ofOption_some, Outcome.ok_bind, aesDecryptEcb,
    if_pos hwhole]
  exact ⟨_, rfl⟩

theorem decryptResponse_of_not_whole {c : PendingClient x} {response : List Byte}
    (hno : ¬ (c.key.isSome ∧ response.length % 16 = 0)) : c.decryptResponse response = .err := by
  rw [PendingClient.decryptResponse]
  cases hkey : c.key with
  | none => rfl
  | some key =>
    rw [Outcome.ofOption_some, Outcome.ok_bind, aesDecryptEcb, if_neg]
    exact fun hwhole => hno ⟨hkey ▸ rfl, hwhole⟩

theorem serverChallengeResponse_served (c : PendingClient x) (response : List Byte) :
    Served certPem c (.serverChallengeResponse response)
      (PendingClient.serverChallengeResponse keyPem response c).2 := by
  rw [PendingClient.serverChallengeResponse, Prog.gets_bind]
  by_cases hwhole : c.key.isSome ∧ response.length % 16 = 0
  · obtain ⟨decrypted, hdecrypted⟩ := decryptResponse_of_whole hwhole.1 hwhole.2
    simp only [hdecrypted, Prog.modify_bind, PendingClient.note, Prog.gets_bind]
    obtain ⟨id, pem, salt, key, _ | secret, serverChallenge, clientHash, history⟩ := c
    · exact .stored hwhole.1 hwhole.2 hdecrypted [] (by simp)
    · rw [Outcome.ofOption_some, Prog.liftM_bind_ok]
      cases x.sign secret keyPem with
      | none => exact .stored hwhole.1 hwhole.2 hdecrypted [] (by simp)
      | some signed =>
        have hstored : Served certPem _ _ _ :=
          .stored hwhole.1 hwhole.2 hdecrypted [.secretReturned secret] (by simp)
        rw [List.append_cons] at hstored
        exact hstored
  · simp only [decryptResponse_of_not_whole hwhole]
    exact .refused hwhole

/-- What a request makes of a record. -/
theorem serve_served (c : PendingClient x) (r : Request) :
    Served certPem c r (r.serve certPem keyPem c).2 := by
  cases r with
  | registerPin pin => exact .registered pin
  | clientChallenge data secret challenge => exact clientChallenge_served c data secret challenge
  | serverChallengeResponse response => exact serverChallengeResponse_served c response

/-! ## The requests about a record -/

/-- The record after the requests `rs` about it. -/
def replay (certPem keyPem : x.Pem) (c : PendingClient x) (rs : List Request) : PendingClient x :=
  rs.foldl (fun c r => (r.serve certPem keyPem c).2) c

theorem replay_append (c : PendingClient x) (rs : List Request) (r : Request) :
    replay certPem keyPem c (rs ++ [r]) = (r.serve certPem keyPem (replay certPem keyPem c rs)).2 :=
  List.foldl_concat ..

/-- A relation of records to requests that each request keeps holds of a record
and the requests about it. -/
theorem replay_inv {P : List Request → PendingClient x → Prop} {c : PendingClient x} (hnew : P [] c)
    (hkeep : ∀ rs c r c', P rs c → Served certPem c r c' → P (rs ++ [r]) c') (rs : List Request) :
    P rs (replay certPem keyPem c rs) := by
  induction rs using List.reverseRecOn with
  | nil => exact hnew
  | append_singleton rs r ih =>
    rw [replay_append]
    exact hkeep rs _ r _ ih (serve_served _ r)

/-- An attempt to pair: what it was started with, and the requests about it. -/
structure Attempt (x : Crates) where
  pem : x.Pem
  salt : List Byte
  requests : List Request

def Attempt.record (certPem keyPem : x.Pem) (id : String) (a : Attempt x) : PendingClient x :=
  replay certPem keyPem (PendingClient.new id a.pem a.salt) a.requests

/-- The attempt of an id after an action. -/
def Attempt.next (id : String) (a : Option (Attempt x)) : Action x → Option (Attempt x)
  | .startPairing id' pem salt => if id = id' then some ⟨pem, salt, []⟩ else a
  | .request id' r => if id = id' then a.map fun a => { a with requests := a.requests ++ [r] } else a
  | .checkClientPairingSecret .. => a

/-- The last attempt of an id. -/
def attempt (id : String) (trace : List (Action x)) : Option (Attempt x) :=
  trace.foldl (Attempt.next id) none

theorem attempt_append (id : String) (trace : List (Action x)) (act : Action x) :
    attempt id (trace ++ [act]) = Attempt.next id (attempt id trace) act :=
  List.foldl_concat ..

/-- The requests about an id. -/
def requestsFor (id : String) (trace : List (Action x)) : List Request :=
  trace.filterMap fun
    | .request id' r => if id = id' then some r else none
    | .startPairing .. | .checkClientPairingSecret .. => none

/-- The attempt `a` began with the last `start_pairing` of the id in `trace`, and
its requests are those since. -/
def Began (id : String) (trace : List (Action x)) (a : Attempt x) : Prop :=
  ∃ before after, trace = before ++ .startPairing id a.pem a.salt :: after ∧
    (∀ pem salt, .startPairing id pem salt ∉ after) ∧ a.requests = requestsFor id after

theorem Began.append {id : String} {trace : List (Action x)} {a : Attempt x} (h : Began id trace a)
    {act : Action x} (hact : ∀ pem salt, act ≠ .startPairing id pem salt) {requests : List Request}
    (hrequests : requests = a.requests ++ requestsFor id [act]) :
    Began id (trace ++ [act]) { a with requests } := by
  obtain ⟨before, after, rfl, hnone, hafter⟩ := h
  refine ⟨before, after ++ [act], by simp, fun pem salt hmem => ?_, ?_⟩
  · rcases List.mem_append.mp hmem with hmem | hmem
    · exact hnone pem salt hmem
    · exact hact pem salt (List.mem_singleton.mp hmem).symm
  · rw [hrequests, hafter, requestsFor, requestsFor, requestsFor, List.filterMap_append]

theorem began_of_attempt {id : String} {trace : List (Action x)} {a : Attempt x}
    (h : attempt id trace = some a) : Began id trace a := by
  induction trace using List.reverseRecOn generalizing a with
  | nil => simp [attempt] at h
  | append_singleton trace act ih =>
    rw [attempt_append] at h
    match act, h with
    | .startPairing id' pem salt, h =>
      simp only [Attempt.next] at h
      split at h
      next hid =>
        apply Option.some.inj at h
        rw [← h, ← hid]
        exact ⟨trace, [], rfl, by simp, rfl⟩
      next hid =>
        exact (ih h).append (by simp [Ne.symm hid]) (by simp [requestsFor])
    | .request id' r, h =>
      simp only [Attempt.next] at h
      split at h
      next hid =>
        obtain ⟨a, ha, rfl⟩ := Option.map_eq_some_iff.mp h
        exact (ih ha).append (by simp) (by simp [requestsFor, hid])
      next hid => exact (ih h).append (by simp) (by simp [requestsFor, hid])
    | .checkClientPairingSecret .., h => exact (ih h).append (by simp) (by simp [requestsFor])

/-! ## What a check stores -/

theorem save_moves (result : SaveResult) :
    Prog.Moves (fun s s' => s'.data = s.data) (PersistentState.save result) := by
  cases result <;> exact fun _ => rfl

theorem addPairedCert_moves (fingerprint : String) (result : SaveResult) :
    Prog.Moves (fun s s' => ∀ fp ∈ s'.data.pairedCerts, fp ∈ s.data.pairedCerts ∨ fp = fingerprint)
      (PersistentState.addPairedCert fingerprint result) := by
  have htrans (a b c : PersistentState)
      (hab : ∀ fp ∈ b.data.pairedCerts, fp ∈ a.data.pairedCerts ∨ fp = fingerprint)
      (hbc : ∀ fp ∈ c.data.pairedCerts, fp ∈ b.data.pairedCerts ∨ fp = fingerprint) :
      ∀ fp ∈ c.data.pairedCerts, fp ∈ a.data.pairedCerts ∨ fp = fingerprint :=
    fun fp h => (hbc fp h).elim (hab fp) .inr
  refine Prog.Moves.bind htrans (fun s fp => .inl) fun known => ?_
  split
  · exact fun s fp => .inl
  · refine Prog.Moves.bind htrans (fun s fp h => (Finset.mem_insert.mp h).symm) fun _ =>
      Prog.Moves.bind htrans (fun s fp h => .inl ?_) fun _ s fp => .inl
    rwa [← save_moves result s]

theorem addClient_moves (client : String) (result : SaveResult) :
    Prog.Moves (fun s s' => s'.data.pairedCerts = s.data.pairedCerts)
      (PersistentState.addClient client result) := by
  refine Prog.Moves.bind (fun _ _ _ hab hbc => hbc.trans hab) (fun s => rfl) fun known => ?_
  split
  · exact fun s => rfl
  · refine Prog.Moves.bind (fun _ _ _ hab hbc => hbc.trans hab) (fun s => rfl) fun _ =>
      Prog.Moves.bind (fun _ _ _ hab hbc => hbc.trans hab) (fun s => ?_) fun _ s => rfl
    rw [save_moves]

/-- What storing a client with the certificate `pem` does to the manager. -/
structure Persisted (pem : x.Pem) (m m' : ClientManager x) : Prop where
  others : m' = { m with state := m'.state }
  certs : ∀ fp ∈ m'.state.data.pairedCerts,
    fp ∈ m.state.data.pairedCerts ∨ certPemFingerprint x pem = some fp

namespace Persisted

variable {pem : x.Pem} {m m' m'' : ClientManager x}

theorem refl (m : ClientManager x) : Persisted pem m m := ⟨rfl, fun _ => .inl⟩

theorem trans (h : Persisted pem m m') (h' : Persisted pem m' m'') : Persisted pem m m'' := by
  refine ⟨?_, fun fp hfp => (h'.certs fp hfp).elim (h.certs fp) .inr⟩
  rw [h'.others, h.others]

theorem persistCert (certSave : SaveResult) :
    Prog.Moves (Persisted pem) (ClientManager.persistCert pem certSave) := by
  rw [ClientManager.persistCert]
  split
  next fingerprint hfp =>
    refine Prog.Moves.bind (fun _ _ _ => trans) (fun m => ⟨rfl, fun fp h => ?_⟩) fun _ => refl
    refine (addPairedCert_moves fingerprint certSave m.state fp h).imp_right fun heq => ?_
    rw [hfp, heq]
  next => exact refl

theorem persistClient (id : String) (clientSave : SaveResult) :
    Prog.Moves (Persisted pem) (ClientManager.persistClient id clientSave) := by
  refine Prog.Moves.bind (fun _ _ _ => trans) (fun m => ⟨rfl, fun fp => .inl⟩) fun known => ?_
  split
  · exact refl
  · refine Prog.Moves.bind (fun _ _ _ => trans) (fun m => ⟨rfl, fun fp h => .inl ?_⟩) fun _ => refl
    rwa [← addClient_moves id clientSave m.state]

end Persisted

/-- A check fails and changes nothing, or has verified the secret and only
stores the client and its certificate. -/
theorem check_persisted (m : ClientManager x) (id : String) (clientSecret : List Byte)
    (certSave clientSave : SaveResult) :
    ((ClientManager.checkClientPairingSecret id clientSecret certSave clientSave m).1 ≠ .ok ⟨⟩ ∧
      (ClientManager.checkClientPairingSecret id clientSecret certSave clientSave m).2 = m) ∨
    ∃ c, m.pendingClients.get? id = some c ∧ c.verifyPairingSecret clientSecret = .ok ⟨⟩ ∧
      Persisted c.pem m (ClientManager.checkClientPairingSecret id clientSecret certSave clientSave m).2 := by
  rw [ClientManager.checkClientPairingSecret, Prog.gets_bind]
  cases hc : m.pendingClients.get? id with
  | none => exact .inl ⟨nofun, rfl⟩
  | some c =>
    rw [Outcome.ofOption_some, Prog.liftM_bind_ok]
    cases hverify : c.verifyPairingSecret clientSecret with
    | ok =>
      refine .inr ⟨c, rfl, hverify, ?_⟩
      rw [Prog.liftM_bind_ok]
      exact Prog.Moves.bind (fun _ _ _ => Persisted.trans) (Persisted.persistCert certSave)
        (fun _ => Persisted.persistClient id clientSave) m
    | err => exact .inl ⟨nofun, rfl⟩
    | panic => exact .inl ⟨nofun, rfl⟩

/-- What a secret that is verified has shown. -/
theorem verifyPairingSecret_eq_ok {c : PendingClient x} {clientSecret : List Byte}
    (h : c.verifyPairingSecret clientSecret = .ok ⟨⟩) : ∃ serverChallenge signature,
      c.serverChallenge = some serverChallenge ∧ extractCertificateSignature x c.pem = .ok signature ∧
      c.clientHash = some (x.sha256 (serverChallenge ++ signature ++ clientSecret.take 16)) ∧
      16 ≤ clientSecret.length ∧
      verifyClientSignature x c.pem (clientSecret.take 16) (clientSecret.drop 16) = .ok ⟨⟩ := by
  obtain ⟨clientHash, hhash, h⟩ := Outcome.bind_eq_ok.mp h
  obtain ⟨serverChallenge, hchallenge, h⟩ := Outcome.bind_eq_ok.mp h
  split at h
  · cases h
  next hlen =>
    obtain ⟨signature, hsignature, h⟩ := Outcome.bind_eq_ok.mp h
    split at h
    · cases h
    next heq =>
      refine ⟨serverChallenge, signature, Outcome.ofOption_eq_ok.mp hchallenge, hsignature, ?_,
        Nat.le_of_not_lt hlen, h⟩
      rw [Outcome.ofOption_eq_ok.mp hhash, not_not.mp heq]

/-! ## Runs -/

theorem trace_exec {w w' : World x} {acts : List (Action x)} (h : exec step w acts = some w') :
    w'.trace = w.trace ++ acts := by
  induction acts generalizing w with
  | nil => rw [← Option.some.inj h, List.append_nil]
  | cons act acts ih =>
    obtain ⟨m, hm, h⟩ := exec_cons.mp h
    rw [ih h, ← Option.some.inj hm, List.append_assoc, List.singleton_append]

/-- Every record is that of the last attempt of its id. -/
structure Recorded (certPem keyPem : x.Pem) (w : World x) : Prop where
  serverCertPem : w.manager.serverCertPem = certPem
  serverPrivateKeyPem : w.manager.serverPrivateKeyPem = keyPem
  records : ∀ id, w.manager.pendingClients.get? id =
    (attempt id w.trace).map (Attempt.record certPem keyPem id)

theorem recorded_start (state : PersistentState) (certPem keyPem : x.Pem) :
    Recorded certPem keyPem (World.start state certPem keyPem) :=
  ⟨rfl, rfl, fun _ => rfl⟩

theorem get?_serve (m : ClientManager x) (id id' : String) (r : Request) :
    (ClientManager.serve id' r m).2.pendingClients.get? id =
      if id = id' then (m.pendingClients.get? id).map fun c =>
        (r.serve m.serverCertPem m.serverPrivateKeyPem c).2
      else m.pendingClients.get? id := by
  rw [ClientManager.serve]
  by_cases hid : id = id'
  · subst hid
    rw [if_pos rfl]
    cases hc : m.pendingClients.get? id with
    | none => simp only [hc, Option.map_none]
    | some c => simp only [OrdMap.get?_modify, hc, ↓reduceIte, Option.map_some]
  · rw [if_neg hid]
    cases m.pendingClients.get? id' with
    | none => rfl
    | some c => simp only [OrdMap.get?_modify, if_neg hid]

theorem serve_others (m : ClientManager x) (id : String) (r : Request) :
    ∃ records, (ClientManager.serve id r m).2 = { m with pendingClients := records } := by
  rw [ClientManager.serve]
  cases m.pendingClients.get? id with
  | none => exact ⟨_, rfl⟩
  | some c => exact ⟨_, rfl⟩

theorem perform_request (m : ClientManager x) (id : String) (r : Request) :
    (perform (.request id r) m).2 = (ClientManager.serve id r m).2 :=
  Prog.bind_pure_state ..

theorem recorded_step (w : World x) (act : Action x) (w' : World x) (h : Recorded certPem keyPem w)
    (hs : step w act = some w') : Recorded certPem keyPem w' := by
  rw [← Option.some.inj hs]
  match act with
  | .startPairing id' pem salt =>
    refine ⟨h.serverCertPem, h.serverPrivateKeyPem, fun id => ?_⟩
    rw [attempt_append, Attempt.next]
    refine (OrdMap.get?_insert ..).trans ?_
    by_cases hid : id = id'
    · rw [if_pos hid, hid]
      exact if_pos rfl
    · rw [if_neg hid]
      exact (if_neg hid).trans (h.records id)
  | .request id' r =>
    obtain ⟨records, hothers⟩ := serve_others w.manager id' r
    refine ⟨?_, ?_, fun id => ?_⟩
    · rw [perform_request, hothers, h.serverCertPem]
    · rw [perform_request, hothers, h.serverPrivateKeyPem]
    · rw [perform_request, get?_serve, attempt_append, Attempt.next, h.records, h.serverCertPem,
        h.serverPrivateKeyPem]
      split
      · cases attempt id w.trace with
        | none => rfl
        | some a => exact congrArg some (replay_append ..).symm
      · rfl
  | .checkClientPairingSecret id' clientSecret certSave clientSave =>
    obtain ⟨state, hothers⟩ : ∃ state, (perform (.checkClientPairingSecret id' clientSecret certSave
        clientSave) w.manager).2 = { w.manager with state } := by
      rcases check_persisted w.manager id' clientSecret certSave clientSave with
        ⟨-, heq⟩ | ⟨c, -, -, hpersisted⟩
      · exact ⟨_, heq⟩
      · exact ⟨_, hpersisted.others⟩
    refine ⟨?_, ?_, fun id => ?_⟩
    · rw [hothers, h.serverCertPem]
    · rw [hothers, h.serverPrivateKeyPem]
    · rw [hothers, attempt_append, Attempt.next]
      exact h.records id

/-- What a record holds comes from the requests about it. -/
structure Made (c₀ : PendingClient x) (rs : List Request) (c : PendingClient x) : Prop where
  pem : c.pem = c₀.pem
  salt : c.salt = c₀.salt
  key : ∀ key, c.key = some key → ∃ pin, .registerPin pin ∈ rs ∧ key = createKey x c₀.salt pin
  challenge : ∀ challenge, c.serverChallenge = some challenge → c.key.isSome ∧
    ∃ data secret, .clientChallenge data (some secret) (some challenge) ∈ rs
  hash : ∀ hash, c.clientHash = some hash → ∃ response, .serverChallengeResponse response ∈ rs

theorem made_replay (certPem keyPem : x.Pem) (id : String) (pem : x.Pem) (salt : List Byte)
    (rs : List Request) : Made (PendingClient.new id pem salt) rs
      (replay certPem keyPem (PendingClient.new id pem salt) rs) := by
  refine replay_inv ⟨rfl, rfl, nofun, nofun, nofun⟩ (fun rs c r c' h hserved => ?_) rs
  have hmem {r' : Request} (h : r' ∈ rs) : r' ∈ rs ++ [r] := List.mem_append_left _ h
  have hlast : r ∈ rs ++ [r] := List.mem_append_right _ (List.mem_singleton_self r)
  have hkey : ∀ key, c.key = some key →
      ∃ pin, .registerPin pin ∈ rs ++ [r] ∧ key = createKey x salt pin := fun key hk =>
    (h.key key hk).imp fun _ hpin => ⟨hmem hpin.1, hpin.2⟩
  have hchallenge : ∀ challenge, c.serverChallenge = some challenge → c.key.isSome ∧
      ∃ data secret, .clientChallenge data (some secret) (some challenge) ∈ rs ++ [r] :=
    fun challenge hc => ⟨(h.challenge challenge hc).1,
      (h.challenge challenge hc).2.imp fun _ h => h.imp fun _ h => hmem h⟩
  have hhash : ∀ hash, c.clientHash = some hash →
      ∃ response, .serverChallengeResponse response ∈ rs ++ [r] := fun hash hh =>
    (h.hash hash hh).imp fun _ h => hmem h
  cases hserved with
  | registered pin =>
    refine ⟨h.pem, h.salt, fun key hk => ⟨pin, hlast, ?_⟩, fun challenge hc => ⟨rfl, ?_⟩, hhash⟩
    · rw [← Option.some.inj hk, h.salt]
    · exact (hchallenge challenge hc).2
  | failed hno kept => exact ⟨h.pem, h.salt, hkey, hchallenge, hhash⟩
  | generated hgen =>
    refine ⟨h.pem, h.salt, hkey, fun challenge hc => ⟨pinned_of_generated hgen, ?_⟩, hhash⟩
    rw [← Option.some.inj hc]
    exact ⟨_, _, hlast⟩
  | refused hno => exact ⟨h.pem, h.salt, hkey, hchallenge, hhash⟩
  | stored hpinned hwhole hdecrypted returned hreturned =>
    exact ⟨h.pem, h.salt, hkey, hchallenge, fun hash _ => ⟨_, hlast⟩⟩

/-- What `clientSecret` shows about the record `c` that the requests `rs` made,
for the certificate `pem` with the fingerprint to be paired. -/
structure Shown (pem : x.Pem) (salt : List Byte) (rs : List Request) (c : PendingClient x)
    (clientSecret : List Byte) (fingerprint : String) : Prop where
  fingerprint : certPemFingerprint x pem = some fingerprint
  pin : ∃ pin, .registerPin pin ∈ rs ∧ c.key = some (createKey x salt pin)
  response : ∃ response, .serverChallengeResponse response ∈ rs
  hash : ∃ data secret challenge signature,
    .clientChallenge data (some secret) (some challenge) ∈ rs ∧ c.serverChallenge = some challenge ∧
    extractCertificateSignature x pem = .ok signature ∧
    c.clientHash = some (x.sha256 (challenge ++ signature ++ clientSecret.take 16))
  signature : verifyClientSignature x pem (clientSecret.take 16) (clientSecret.drop 16) = .ok ⟨⟩

/-- After the run `acts`, `act` is a check of the record that the last
`start_pairing` of its id and the requests about it since have made, and its
secret shows what the fingerprint is paired for. -/
def PairedBy (certPem keyPem : x.Pem) (acts : List (Action x)) (w : World x) (act : Action x)
    (fingerprint : String) : Prop :=
  ∃ id clientSecret certSave clientSave before pem salt since c,
    act = .checkClientPairingSecret id clientSecret certSave clientSave ∧
    acts = before ++ .startPairing id pem salt :: since ∧
    (∀ pem' salt', .startPairing id pem' salt' ∉ since) ∧
    w.manager.pendingClients.get? id = some c ∧
    c = replay certPem keyPem (PendingClient.new id pem salt) (requestsFor id since) ∧
    Shown pem salt (requestsFor id since) c clientSecret fingerprint

/-- A fingerprint enters the paired set only so. -/
theorem newly_paired {state : PersistentState} {acts : List (Action x)} {w w' : World x}
    {act : Action x} {fingerprint : String}
    (h : exec step (World.start state certPem keyPem) acts = some w) (hs : step w act = some w')
    (hbefore : fingerprint ∉ w.manager.state.data.pairedCerts)
    (hafter : fingerprint ∈ w'.manager.state.data.pairedCerts) :
    PairedBy certPem keyPem acts w act fingerprint := by
  have hrecorded : Recorded certPem keyPem w := exec_inv recorded_step (recorded_start ..) h
  rw [← Option.some.inj hs] at hafter
  match act with
  | .startPairing id pem salt => exact absurd hafter hbefore
  | .request id r =>
    obtain ⟨records, hothers⟩ := serve_others w.manager id r
    rw [perform_request, hothers] at hafter
    exact absurd hafter hbefore
  | .checkClientPairingSecret id clientSecret certSave clientSave =>
    rcases check_persisted w.manager id clientSecret certSave clientSave with
      ⟨-, heq⟩ | ⟨c, hc, hverify, hpersisted⟩
    · exact absurd (heq ▸ hafter) hbefore
    · have hfp := (hpersisted.certs fingerprint hafter).resolve_left hbefore
      obtain ⟨challenge, signature, hchallenge, hsignature, hhash, hlen, hrsa⟩ :=
        verifyPairingSecret_eq_ok hverify
      obtain ⟨a, ha, hrecord⟩ := Option.map_eq_some_iff.mp ((hrecorded.records id).symm.trans hc)
      obtain ⟨before, since, htrace, hnone, hrequests⟩ := began_of_attempt ha
      rw [trace_exec h] at htrace
      have hmade := made_replay certPem keyPem id a.pem a.salt a.requests
      rw [← Attempt.record, hrecord] at hmade
      rw [hmade.pem] at hfp hsignature hrsa
      obtain ⟨hpinned, data, secret, hdata⟩ := hmade.challenge challenge hchallenge
      obtain ⟨key, hkey⟩ := Option.isSome_iff_exists.mp hpinned
      obtain ⟨pin, hpin, rfl⟩ := hmade.key key hkey
      rw [hrequests] at hpin hdata
      refine ⟨id, clientSecret, certSave, clientSave, before, a.pem, a.salt, since, c, rfl, htrace, hnone,
        hc, ?_, ?_⟩
      · rw [← hrecord, Attempt.record, hrequests]
      · exact ⟨hfp, ⟨pin, hpin, hkey⟩, hrequests ▸ hmade.hash _ hhash,
          ⟨data, secret, challenge, signature, hdata, hchallenge, hsignature, hhash⟩, hrsa⟩

/-! ## A pairing

The certificates are of RSA keys, signed by one Ed25519 key. The functions of
the crates are tables of what they compute in the run. -/

inductive ExamplePem
  | clientCert | serverCert | serverKey
  deriving DecidableEq

def clientPublicKey : List Byte :=
  beBytes 44 0x3082010a0282010100e4cd8e8c544c733d06456a864e79c783669ca65d8fcee3d3009478286dc3972467421d ++
  beBytes 44 0x690e66b9bb90d2dcb3ffc9b10db0ab94ef0c8a5a81ceb604399bbba41067c7aff93292dcef9885a482c4bfec ++
  beBytes 44 0x46bfba11ff1da87e619fe1dc10d5d263c4f7e2308df1f3194257552ccffacecacddea7e1e6266104b587bdbd ++
  beBytes 44 0x57daeeeb0e25befc96d145bebc379fe815aa54cef66798301f20a643f9d1c8a45f7e4230bb3654031146dbce ++
  beBytes 44 0xe4ccefd2e3a33d1d38d476b76e5a9d12dcb6fa11fbc368a94c4bd63f5850b60d5021d33ff836564577817c2b ++
  beBytes 44 0x7e60d05cb043469a0296ad83f382a243feb65f55e4ebd05eea1f0f9aab9a721a7cad02d810e073d46130b61e ++
  beBytes 6 0xb90203010001

def clientCertSignature : List Byte :=
  beBytes 44 0xce56927a3f21feddc8baa14a3716b18011f52808c0c2395e2ba921f71c0643da68ae98724cd406f50e9efd5f ++
  beBytes 20 0x9986e20538a268cd5c2cd2973098e089a58cc80a

/-- The contents of a certificate with a serial number and a name. -/
def certContents (serial name : Nat) (publicKey signature : List Byte) : List Byte :=
  beBytes 10 0x308201ba3082016c0201 ++ beBytes 1 serial ++
  beBytes 40 0x300506032b6570300c310a300806035504030c0161301e170d3236313131383133333533305a170d ++
  beBytes 26 0x3436313131333133333533305a300c310a300806035504030c01 ++ beBytes 1 name ++
  beBytes 24 0x30820122300d06092a864886f70d01010105000382010f00 ++ publicKey ++
  beBytes 10 0x300506032b6570034100 ++ signature

def serverPublicKey : List Byte :=
  beBytes 44 0x3082010a0282010100c44c53d7b31f73435a57a5277207c1e10decae8c94a3bccd81e7a8a4aa5c243ff8b6f6 ++
  beBytes 44 0x1c352083f13e995041e37ec89ac254da2ffa7f78dcb729f4d769f62b2b6b36c1ff8af17e27d35c88ec874460 ++
  beBytes 44 0x0b479f9ce91929556adf17103fc3d74b0a680f0f5dabe1761d65cecd643b44e9a99d12c35aa15a49419dcbdb ++
  beBytes 44 0xb53659a2a50a43230c64489173d898927cfd2f3a86981d5c7bbf623519305c63545142ac9ecaae4bcaabb5af ++
  beBytes 44 0x10d1fa2853c0411a7100cd54b25f641aae2eb594e54897872ce443e7462dcef75984337c52410ad7b37512c1 ++
  beBytes 44 0xa89fd6bdb94b15f3b6e0320c375f2262ff52b6c2b5bbb69b6140e2f899071b23e85802c0c92d379abfecc1d5 ++
  beBytes 6 0x830203010001

def serverCertSignature : List Byte :=
  beBytes 44 0x6bb21adb9bba09a5f608c2b12d455893417d7a8b5b55df26eb46aff9c859c917f463a3554a900a87385d411b ++
  beBytes 20 0xefdaeb248c2fd11dc4d412cf86f2be71c0277f0e

/-- The key of the salt `000102…0f` and the PIN 1234. -/
def exampleKey : List Byte := beBytes 16 0xbad0b4f7cae08eb7c1b5acc763a8ed25

/-- The hash of a challenge, the signature of the client's certificate and a secret. -/
def exampleHash : List Byte := beBytes 32 0xe8225eea6ed5df62f6101c6e86ab8e6e32512d02aa985a3be247e87a7c69c4c5

/-- The hash, encrypted. -/
def exampleResponse : List Byte :=
  beBytes 32 0xd3c9e21d9327f241670fcd3b6ef0e57467c30a535662250843cb17903b87ac53

def clientSecretSignature : List Byte :=
  beBytes 44 0x5df2f3ee839e88e64c5eba76deb2faf05964a909df774e001e6d41705ac00974d4ec0d5e52f9feeb1b7ce629 ++
  beBytes 44 0x48e679a0bfbe1dd8615c6dc26c826f234e800c871ea5f704eb3e7eda8978545b64baad10b04e424bab22e570 ++
  beBytes 44 0x133910b890dcfed907b82a6fee4d5f09b781b17ef1e8f172c7963a882574740efe00bb49501acd45d58b3c98 ++
  beBytes 44 0x9f6fafd906aecc714d9804990a8c5dc0028a8ceacfffa6d7fa13caaf5cf80b0a4e332d65879c93214ede7fa3 ++
  beBytes 44 0xad832bce4c73866d45df1a03bfda5752bfc02e94724bef737c9c634773b3f9979a10785905fc8df8982baf81 ++
  beBytes 36 0x2b7d3fe32fcb698d39bad430fb3a19e09710a54120cc39f2ca5bcbccb7398127a0649377

def serverSecretSignature : List Byte :=
  beBytes 44 0x7370ce92fd3336b05935b386e8fa34fa4cb5a40d834fc9f4f972e63349ba7c284b42a7ae0ba66aab3ea19c6a ++
  beBytes 44 0xb75c0702054805c50aa5985b975179801db2a76ae191865dea8951fef34b781e883efa1ab0c917fa949409ee ++
  beBytes 44 0xb208845ac8bbbb3a09e236c4537d9cc900420d256d66d941db63669adaadb306ea3a112e85e0f0637eb1f42a ++
  beBytes 44 0x27965ac2b32b75ca24e26a3209790ce44cc3546d2e3bfdab8a1075f0495d36afba40e6cc17b29a06845a9505 ++
  beBytes 44 0x33ee547f1b4346bbc8ff21c0419621702c39dba347bb75959a9c9fb2f3645cc4648dcf7af509a8b1379917da ++
  beBytes 36 0x47d78452a16505fb97edf4b4d11644aaf32ff32b3b41f7e58f030c48dd341042ffe1310b

def clientContents : List Byte := certContents 1 0x63 clientPublicKey clientCertSignature

def serverContents : List Byte := certContents 2 0x73 serverPublicKey serverCertSignature

def exampleSalt : List Byte := beBytes 16 0x000102030405060708090a0b0c0d0e0f

def examplePin : List Byte := beBytes 4 0x31323334

def exampleChallenge : List Byte := beBytes 16 0x101112131415161718191a1b1c1d1e1f

def exampleServerSecret : List Byte := beBytes 16 0x202122232425262728292a2b2c2d2e2f

def exampleServerChallenge : List Byte := beBytes 16 0x303132333435363738393a3b3c3d3e3f

def exampleClientSecret : List Byte := beBytes 16 0x404142434445464748494a4b4c4d4e4f

def exampleCrates : Crates where
  Pem := ExamplePem
  sha256 data :=
    if data = exampleSalt ++ examplePin then exampleKey ++ beBytes 16 0x242e2c9173e81f3f624b1fa5303cf6ce
    else if data =
        beBytes 16 0xcacad4d2b7a364a9a5be8e8fbc90a99e ++ serverCertSignature ++ exampleServerSecret then
      beBytes 32 0xc57a649262e926e7f8696a0f5e4ef6074d9193bc43adb53275523d57db75630b
    else if data = exampleServerChallenge ++ clientCertSignature ++ exampleClientSecret then exampleHash
    else if data = clientContents then
      beBytes 32 0x0284516ba97a3a363ab3fbf98b59f2d4b58a8384d13bd1e365d1cccfe7c9c05f
    else []
  encryptBlock key block :=
    if key ≠ exampleKey then []
    else if block = beBytes 16 0xc57a649262e926e7f8696a0f5e4ef607 then
      beBytes 16 0x9ade9164b18daa635d033a9632cfcc7f
    else if block = beBytes 16 0x4d9193bc43adb53275523d57db75630b then
      beBytes 16 0xc07ea421cf82bfbd63279565bf5cdfb3
    else if block = exampleServerChallenge then beBytes 16 0x58f1c991a85a76c2526eb7cf9453b7e7
    else []
  decryptBlock key block :=
    if key ≠ exampleKey then []
    else if block = exampleChallenge then beBytes 16 0xcacad4d2b7a364a9a5be8e8fbc90a99e
    else if block = exampleResponse.take 16 then exampleHash.take 16
    else if block = exampleResponse.drop 16 then exampleHash.drop 16
    else if block = beBytes 16 0 then beBytes 16 0x9b91a34fa3d2c1114420fe840c1a4fc1
    else []
  parseX509Pem
    | .clientCert => some clientContents
    | .serverCert => some serverContents
    | .serverKey => none
  parseX509 contents :=
    if contents = clientContents then some ⟨clientCertSignature, clientPublicKey⟩
    else if contents = serverContents then some ⟨serverCertSignature, serverPublicKey⟩
    else none
  verify publicKey message signature :=
    publicKey = clientPublicKey ∧ message = exampleClientSecret ∧ signature = clientSecretSignature
  sign data keyPem :=
    if data = exampleServerSecret ∧ keyPem = .serverKey then some serverSecretSignature else none

def exampleFingerprint : String := "0284516ba97a3a363ab3fbf98b59f2d4b58a8384d13bd1e365d1cccfe7c9c05f"


def exampleStart : World exampleCrates := World.start ⟨⟨∅, ∅⟩, none⟩ .serverCert .serverKey

/-- The steps of a pairing, up to the last. -/
def exampleRun : List (Action exampleCrates) :=
  [.startPairing "a" .clientCert exampleSalt, .request "a" (.registerPin examplePin),
    .request "a" (.clientChallenge exampleChallenge (some exampleServerSecret) (some exampleServerChallenge)),
    .request "a" (.serverChallengeResponse exampleResponse)]

def exampleCheck : Action exampleCrates :=
  .checkClientPairingSecret "a" (exampleClientSecret ++ clientSecretSignature) .written .written

/-- The certificate is paired by the last step. -/
theorem exampleRun_pairs : (exec step exampleStart exampleRun).map (fun w =>
    (decide (exampleFingerprint ∈ w.manager.state.data.pairedCerts),
      decide (exampleFingerprint ∈ (perform exampleCheck w.manager).2.state.data.pairedCerts))) =
    some (false, true) := by
  decide +kernel

theorem exampleRun_newly_paired : ∃ w, exec step exampleStart exampleRun = some w ∧
    PairedBy (x := exampleCrates) ExamplePem.serverCert ExamplePem.serverKey exampleRun w exampleCheck
      exampleFingerprint := by
  obtain ⟨w, hw, hcerts⟩ := Option.map_eq_some_iff.mp exampleRun_pairs
  simp only [Prod.mk.injEq, decide_eq_false_iff_not, decide_eq_true_eq] at hcerts
  have hs : step w exampleCheck =
      some ⟨(perform exampleCheck w.manager).2, w.trace ++ [exampleCheck]⟩ := rfl
  exact ⟨w, hw, newly_paired hw hs hcerts.1 hcerts.2⟩

end Moonshine.Proof.Pairing
