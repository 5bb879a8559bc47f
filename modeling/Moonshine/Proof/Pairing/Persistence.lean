import Moonshine.Framework.Run
import Moonshine.Proof.Pairing.Records

/-!
# Failed saves

Each call of the persistent state that stores something inserts it in memory and
then writes the file, so that a save that fails leaves what was inserted, and the
call again finds it known and writes nothing. Along a run, a call that fails leaves
memory as it was, and one that is repeated after its save failed leaves the client
and its certificate in memory and on disk (`Persists`), exactly if no save that a
call attempts fails: `persists_iff`.
-/

namespace Moonshine.Proof.Pairing

open Moonshine.Framework Moonshine.Impl Moonshine.Impl.Pairing

variable {x : Crates}

/-- What `addClient` and `addPairedCert` do of a value that is `known` of some data and
is `put` into it. -/
def store (known : StateData → Bool) (put : StateData → StateData) (result : SaveResult) :
    Prog PersistentState Bool := do
  let found ← Prog.gets fun s => known s.data
  if found then return false
  else
    Prog.modify fun s => { s with data := put s.data }
    PersistentState.save result
    return true

def hasClient (client : String) (d : StateData) : Bool := client ∈ d.clients

def putClient (client : String) (d : StateData) : StateData := { d with clients := insert client d.clients }

def hasCert (fingerprint : String) (d : StateData) : Bool := fingerprint ∈ d.pairedCerts

def putCert (fingerprint : String) (d : StateData) : StateData :=
  { d with pairedCerts := insert fingerprint d.pairedCerts }

theorem addClient_eq (client : String) (result : SaveResult) :
    PersistentState.addClient client result = store (hasClient client) (putClient client) result := rfl

theorem addPairedCert_eq (fingerprint : String) (result : SaveResult) :
    PersistentState.addPairedCert fingerprint result = store (hasCert fingerprint) (putCert fingerprint) result :=
  rfl

@[simp] theorem hasClient_putClient (client : String) (d : StateData) :
    hasClient client (putClient client d) = true := by simp [hasClient, putClient]

@[simp] theorem hasCert_putCert (fingerprint : String) (d : StateData) :
    hasCert fingerprint (putCert fingerprint d) = true := by simp [hasCert, putCert]

@[simp] theorem hasClient_putCert (client fingerprint : String) (d : StateData) :
    hasClient client (putCert fingerprint d) = hasClient client d := rfl

@[simp] theorem hasCert_putClient (client fingerprint : String) (d : StateData) :
    hasCert fingerprint (putClient client d) = hasCert fingerprint d := rfl

/-- The value is new, and its save fails. -/
def saveFails (known : StateData → Bool) (result : SaveResult) (d : StateData) : Bool :=
  !known d && result ≠ .written

theorem new_of_saveFails {known : StateData → Bool} {result : SaveResult} {d : StateData}
    (h : saveFails known result d = true) : known d = false := by
  simp only [saveFails, Bool.and_eq_true, Bool.not_eq_true'] at h
  exact h.1

section Store

variable {known : StateData → Bool} {put : StateData → StateData} {result : SaveResult} {s : PersistentState}

theorem store_of_known (hknown : known s.data = true) : store known put result s = (.ok false, s) := by
  rw [store, Prog.gets_bind, if_pos hknown]
  rfl

theorem store_of_written (hnew : known s.data = false) :
    store known put .written s = (.ok true, ⟨put s.data, some (put s.data)⟩) := by
  rw [store, Prog.gets_bind, if_neg (by simp [hnew])]
  rfl

/-- Where its save fails, the value stays in memory. -/
theorem store_of_saveFails (h : saveFails known result s.data = true) :
    ∃ file, store known put result s = (.err, ⟨put s.data, file⟩) := by
  obtain ⟨hnew, hresult⟩ : known s.data = false ∧ result ≠ .written := by simpa [saveFails] using h
  rw [store, Prog.gets_bind, if_neg (by simp [hnew])]
  cases result with
  | written => exact absurd rfl hresult
  | failed => exact ⟨s.file, rfl⟩
  | truncated => exact ⟨none, rfl⟩

/-- Otherwise it is in memory, and on disk if memory was. -/
theorem store_of_not_saveFails (h : saveFails known result s.data = false)
    (hput : known (put s.data) = true) : ∃ added s', store known put result s = (.ok added, s') ∧
      known s'.data = true ∧ (s' = s ∨ s' = ⟨put s.data, some (put s.data)⟩) := by
  cases hknown : known s.data with
  | true => exact ⟨false, s, store_of_known hknown, hknown, .inl rfl⟩
  | false =>
    obtain rfl : result = .written := by simpa [saveFails, hknown] using h
    exact ⟨true, _, store_of_written hknown, hput, .inr rfl⟩

end Store

/-- What is retried. -/
inductive Operation
  | addClient (client : String)
  | addPairedCert (fingerprint : String)
  | checkClientPairingSecret (id : String) (clientSecret : List Byte)
  deriving DecidableEq

/-- A call, with how its saves end. -/
inductive Call (x : Crates)
  | addClient (client : String) (result : SaveResult)
  | addPairedCert (fingerprint : String) (result : SaveResult)
  | pairing (act : Action x)

namespace Call

def operation : Call x → Option Operation
  | addClient client _ => some (.addClient client)
  | addPairedCert fingerprint _ => some (.addPairedCert fingerprint)
  | pairing (.checkClientPairingSecret id clientSecret _ _) => some (.checkClientPairingSecret id clientSecret)
  | pairing (.startPairing ..) => none
  | pairing (.request ..) => none

def perform : Call x → Prog (ClientManager x) PUnit
  | addClient client result => do
    let _ ← ClientManager.onState (PersistentState.addClient client result)
    return ⟨⟩
  | addPairedCert fingerprint result => do
    let _ ← ClientManager.onState (PersistentState.addPairedCert fingerprint result)
    return ⟨⟩
  | pairing act => Impl.Pairing.perform act

/-- A save that the call attempts fails. -/
def saveFails (m : ClientManager x) : Call x → Bool
  | addClient client result => Pairing.saveFails (hasClient client) result m.state.data
  | addPairedCert fingerprint result => Pairing.saveFails (hasCert fingerprint) result m.state.data
  | pairing (.checkClientPairingSecret id clientSecret certSave clientSave) =>
    (m.pendingClients.get? id).any fun c => c.verifyPairingSecret clientSecret = .ok ⟨⟩ &&
      ((certPemFingerprint x c.pem).any (fun fp => Pairing.saveFails (hasCert fp) certSave m.state.data) ||
        Pairing.saveFails (hasClient id) clientSave m.state.data)
  | pairing (.startPairing ..) => false
  | pairing (.request ..) => false

end Call

/-- The data has the client, its certificate, or both. -/
def Operation.Holds (m : ClientManager x) (d : StateData) : Operation → Prop
  | addClient client => hasClient client d = true
  | addPairedCert fingerprint => hasCert fingerprint d = true
  | checkClientPairingSecret id _ => hasClient id d = true ∧
    ∀ c ∈ m.pendingClients.get? id, ∃ fp ∈ certPemFingerprint x c.pem, hasCert fp d = true

/-- In memory and on disk. -/
def Operation.Kept (m : ClientManager x) (op : Operation) : Prop :=
  op.Holds m m.state.data ∧ ∃ d ∈ m.state.file, op.Holds m d

/-- Storing a value, as part of a call on the manager. -/
def keep (known : StateData → Bool) (put : StateData → StateData) (result : SaveResult) :
    Prog (ClientManager x) PUnit := do
  let _ ← ClientManager.onState (store known put result)
  return ⟨⟩

theorem Call.perform_addClient (client : String) (result : SaveResult) :
    (Call.addClient client result : Call x).perform = keep (hasClient client) (putClient client) result := by
  rw [Call.perform, addClient_eq, keep]

theorem Call.perform_addPairedCert (fingerprint : String) (result : SaveResult) :
    (Call.addPairedCert fingerprint result : Call x).perform =
      keep (hasCert fingerprint) (putCert fingerprint) result := by
  rw [Call.perform, addPairedCert_eq, keep]

section Keep

variable {known : StateData → Bool} {put : StateData → StateData} {result : SaveResult} {m : ClientManager x}

theorem onState_of_eq {α : Type} {p : Prog PersistentState α} {out : Outcome α} {s' : PersistentState}
    (h : p m.state = (out, s')) : ClientManager.onState p m = (out, { m with state := s' }) := by
  rw [ClientManager.onState, h]

theorem keep_of_saveFails (h : saveFails known result m.state.data = true)
    (hput : known (put m.state.data) = true) :
    ∃ s', keep known put result m = (.err, { m with state := s' }) ∧ known s'.data = true := by
  obtain ⟨file, hstore⟩ := store_of_saveFails h
  exact ⟨_, Prog.bind_of_err (onState_of_eq hstore), hput⟩

theorem keep_of_not_saveFails (h : saveFails known result m.state.data = false)
    (hput : known (put m.state.data) = true) :
    ∃ s', keep known put result m = (.ok ⟨⟩, { m with state := s' }) ∧
      known s'.data = true ∧ (s' = m.state ∨ s' = ⟨put m.state.data, some (put m.state.data)⟩) := by
  obtain ⟨added, s', hstore, hknown, hs'⟩ := store_of_not_saveFails h hput
  exact ⟨s', Prog.bind_of_ok (onState_of_eq hstore), hknown, hs'⟩

/-- That the client is looked up first makes no difference. -/
theorem persistClient_eq (id : String) (result : SaveResult) :
    (ClientManager.persistClient id result : Prog (ClientManager x) PUnit) =
      keep (hasClient id) (putClient id) result := by
  funext m
  have hfound : ClientManager.onState (PersistentState.hasClient id) m =
      (.ok (hasClient id m.state.data), m) := rfl
  rw [ClientManager.persistClient, Prog.bind_of_ok hfound]
  cases hknown : hasClient id m.state.data with
  | true =>
    have hkeep : keep (hasClient id) (putClient id) result m = (.ok ⟨⟩, m) :=
      Prog.bind_of_ok (onState_of_eq (store_of_known hknown))
    rw [hkeep]
    rfl
  | false => rfl

theorem persistCert_eq {pem : x.Pem} {fingerprint : String} (h : certPemFingerprint x pem = some fingerprint) :
    ClientManager.persistCert pem result = keep (hasCert fingerprint) (putCert fingerprint) result := by
  rw [ClientManager.persistCert, h]
  rfl

end Keep

section Calls

variable {m : ClientManager x} {c : Call x} {id : String} {clientSecret : List Byte}
  {certSave clientSave : SaveResult} {record : PendingClient x}

theorem check_of_verified (hrecord : m.pendingClients.get? id = some record)
    (hverified : record.verifyPairingSecret clientSecret = .ok ⟨⟩) :
    ClientManager.checkClientPairingSecret id clientSecret certSave clientSave m =
      (ClientManager.persistCert record.pem certSave >>= fun _ =>
        keep (hasClient id) (putClient id) clientSave) m := by
  rw [ClientManager.checkClientPairingSecret, Prog.gets_bind, hrecord, Outcome.ofOption_some,
    Prog.liftM_bind_ok, hverified, Prog.liftM_bind_ok, persistClient_eq]

theorem check_of_not_verified (certSave clientSave : SaveResult)
    (h : ∀ record ∈ m.pendingClients.get? id, record.verifyPairingSecret clientSecret ≠ .ok ⟨⟩) :
    (ClientManager.checkClientPairingSecret id clientSecret certSave clientSave m).1 ≠ .ok ⟨⟩ ∧
      (ClientManager.checkClientPairingSecret id clientSecret certSave clientSave m).2 = m := by
  rcases check_persisted m id clientSecret certSave clientSave with hrefused | ⟨record, hrecord, hverified, -⟩
  · exact hrefused
  · exact absurd hverified (h record hrecord)

/-- A secret is verified against a certificate, which has a fingerprint. -/
theorem fingerprint_of_verified (hverified : record.verifyPairingSecret clientSecret = .ok ⟨⟩) :
    ∃ fp, certPemFingerprint x record.pem = some fp := by
  obtain ⟨-, signature, -, hsignature, -⟩ := verifyPairingSecret_eq_ok hverified
  obtain ⟨contents, hcontents, -⟩ := Outcome.bind_eq_ok.mp hsignature
  exact ⟨_, by rw [certPemFingerprint, Outcome.ofOption_eq_ok.mp hcontents, Option.map_some]⟩

/-- One part of a call: where its save fails, memory has something new. -/
theorem keep_fails {known : StateData → Bool} {put : StateData → StateData} {result : SaveResult}
    (h : saveFails known result m.state.data = true) (hput : known (put m.state.data) = true) :
    (keep known put result m).1 = .err ∧ (keep known put result m).2.state.data ≠ m.state.data := by
  obtain ⟨s', hkeep, hknown⟩ := keep_of_saveFails h hput
  rw [hkeep]
  refine ⟨rfl, fun heq => ?_⟩
  have hdata : s'.data = m.state.data := heq
  rw [hdata, new_of_saveFails h] at hknown
  cases hknown

/-- The certificate is known or written, and the client's save fails. -/
theorem check_fails {fp : String} (hcert : saveFails (hasCert fp) certSave m.state.data = false)
    (hclient : saveFails (hasClient id) clientSave m.state.data = true) :
    ((keep (hasCert fp) (putCert fp) certSave >>= fun _ => keep (hasClient id) (putClient id) clientSave) m).1 =
        .err ∧
      ((keep (hasCert fp) (putCert fp) certSave >>= fun _ => keep (hasClient id) (putClient id) clientSave)
        m).2.state.data ≠ m.state.data := by
  obtain ⟨s₁, hkeep, -, hs₁⟩ := keep_of_not_saveFails hcert (hasCert_putCert fp _)
  have hsame : hasClient id s₁.data = hasClient id m.state.data := by
    rcases hs₁ with rfl | rfl
    · rfl
    · exact hasClient_putCert id fp _
  have hclient₁ : saveFails (hasClient id) clientSave s₁.data = true := by rwa [saveFails, hsame]
  obtain ⟨s₂, hkeep₂, hknown⟩ :=
    keep_of_saveFails (m := { m with state := s₁ }) hclient₁ (hasClient_putClient id _)
  rw [Prog.bind_of_ok hkeep, hkeep₂]
  refine ⟨rfl, fun heq => ?_⟩
  have hdata : s₂.data = m.state.data := heq
  rw [hdata, new_of_saveFails hclient] at hknown
  cases hknown

/-- A save that fails is an error, and leaves something new in memory. -/
theorem perform_of_saveFails (h : c.saveFails m = true) :
    (c.perform m).1 = .err ∧ (c.perform m).2.state.data ≠ m.state.data := by
  cases c with
  | addClient client result =>
    rw [Call.perform_addClient]
    exact keep_fails h (hasClient_putClient client _)
  | addPairedCert fingerprint result =>
    rw [Call.perform_addPairedCert]
    exact keep_fails h (hasCert_putCert fingerprint _)
  | pairing act =>
    cases act with
    | startPairing id pem salt => cases h
    | request id request => cases h
    | checkClientPairingSecret id clientSecret certSave clientSave =>
      obtain ⟨record, hrecord, hsaves⟩ := (Option.any_eq_true _ _).mp h
      rw [Bool.and_eq_true, decide_eq_true_eq] at hsaves
      obtain ⟨hverified, hsaves⟩ := hsaves
      obtain ⟨fp, hfp⟩ := fingerprint_of_verified hverified
      rw [hfp, Option.any_some] at hsaves
      show (ClientManager.checkClientPairingSecret id clientSecret certSave clientSave m).1 = .err ∧
        (ClientManager.checkClientPairingSecret id clientSecret certSave clientSave m).2.state.data ≠ _
      rw [check_of_verified hrecord hverified, persistCert_eq hfp]
      cases hcert : saveFails (hasCert fp) certSave m.state.data with
      | true =>
        have hfails := keep_fails hcert (hasCert_putCert fp _)
        obtain ⟨s', hkeep, -⟩ := keep_of_saveFails hcert (hasCert_putCert fp _)
        rw [Prog.bind_of_err hkeep, ← hkeep]
        exact hfails
      | false => exact check_fails hcert (by simpa [hcert] using hsaves)

/-- Memory and disk agree. -/
def Agrees (s : PersistentState) : Prop := s.file = some s.data

theorem agrees_of_stored {s s' : PersistentState} {d : StateData} (hs' : s' = s ∨ s' = ⟨d, some d⟩)
    (h : Agrees s) : Agrees s' := by
  rcases hs' with rfl | rfl
  · exact h
  · rfl

/-- How a call ends, and what it leaves: everything as it was where it does not return,
and otherwise what it is about. -/
structure Stores (c : Call x) (m : ClientManager x) (r : Outcome PUnit × ClientManager x) : Prop where
  unchanged : r.1 ≠ .ok ⟨⟩ → r.2.state = m.state
  holds : r.1 = .ok ⟨⟩ → ∀ op ∈ c.operation, op.Holds r.2 r.2.state.data
  agrees : Agrees m.state → Agrees r.2.state

/-- The certificate and the client, one after the other. -/
theorem check_stores (clientSecret : List Byte) {fp : String} (hrecord : m.pendingClients.get? id = some record)
    (hfp : certPemFingerprint x record.pem = some fp)
    (hcert : saveFails (hasCert fp) certSave m.state.data = false)
    (hclient : saveFails (hasClient id) clientSave m.state.data = false) :
    Stores (.pairing (.checkClientPairingSecret id clientSecret certSave clientSave)) m
      ((keep (hasCert fp) (putCert fp) certSave >>= fun _ => keep (hasClient id) (putClient id) clientSave) m) := by
  obtain ⟨s₁, hkeep, hknown, hs₁⟩ := keep_of_not_saveFails hcert (hasCert_putCert fp _)
  have hsame : hasClient id s₁.data = hasClient id m.state.data := by
    rcases hs₁ with rfl | rfl
    · rfl
    · exact hasClient_putCert id fp _
  have hclient₁ : saveFails (hasClient id) clientSave s₁.data = false := by rwa [saveFails, hsame]
  obtain ⟨s₂, hkeep₂, hknown₂, hs₂⟩ :=
    keep_of_not_saveFails (m := { m with state := s₁ }) hclient₁ (hasClient_putClient id _)
  have hcert₂ : hasCert fp s₂.data = true := by
    rcases hs₂ with rfl | rfl
    · exact hknown
    · exact hknown
  rw [Prog.bind_of_ok hkeep, hkeep₂]
  refine ⟨fun h => absurd rfl h, fun _ op hop => ?_, fun h => agrees_of_stored hs₂ (agrees_of_stored hs₁ h)⟩
  obtain rfl := Option.some.inj hop
  refine ⟨hknown₂, fun record' hrecord' => ?_⟩
  obtain rfl := Option.some.inj (hrecord.symm.trans hrecord')
  exact ⟨fp, hfp, hcert₂⟩

/-- A call that only stores a value. -/
theorem stores_keep {known : StateData → Bool} {put : StateData → StateData} {result : SaveResult}
    (hperform : c.perform = keep known put result)
    (hholds : ∀ (m' : ClientManager x) d, ∀ op ∈ c.operation, known d = true → op.Holds m' d)
    (h : saveFails known result m.state.data = false) (hput : known (put m.state.data) = true) :
    Stores c m (c.perform m) := by
  obtain ⟨s', hkeep, hknown, hs'⟩ := keep_of_not_saveFails h hput
  rw [hperform, hkeep]
  exact ⟨fun h => absurd rfl h, fun _ op hop => hholds _ _ op hop hknown, agrees_of_stored hs'⟩

/-- A call that is not about the persistent state. -/
theorem stores_of_same {r : Outcome PUnit × ClientManager x} (hop : c.operation = none)
    (hsame : r.2.state = m.state) : Stores c m r :=
  ⟨fun _ => hsame, fun _ op h => (by rw [hop] at h; cases h), fun h => hsame.symm ▸ h⟩

/-- A call whose saves are written fails and changes nothing, or stores what it is about. -/
theorem perform_of_not_saveFails (h : c.saveFails m = false) : Stores c m (c.perform m) := by
  cases c with
  | addClient client result =>
    refine stores_keep (Call.perform_addClient client result) (fun m' d op hop hknown => ?_) h
      (hasClient_putClient client _)
    exact Option.some.inj hop ▸ hknown
  | addPairedCert fingerprint result =>
    refine stores_keep (Call.perform_addPairedCert fingerprint result) (fun m' d op hop hknown => ?_) h
      (hasCert_putCert fingerprint _)
    exact Option.some.inj hop ▸ hknown
  | pairing act =>
    cases act with
    | startPairing id pem salt => exact stores_of_same rfl rfl
    | request id request =>
      obtain ⟨records, hserve⟩ := serve_others m id request
      have hperform : ((Call.pairing (.request id request)).perform m).2 = { m with pendingClients := records } :=
        (perform_request m id request).trans hserve
      exact stores_of_same rfl (by rw [hperform])
    | checkClientPairingSecret id clientSecret certSave clientSave =>
      show Stores _ m (ClientManager.checkClientPairingSecret id clientSecret certSave clientSave m)
      by_cases hverified :
          ∃ record ∈ m.pendingClients.get? id, record.verifyPairingSecret clientSecret = .ok ⟨⟩
      · obtain ⟨record, hrecord, hverified⟩ := hverified
        obtain ⟨fp, hfp⟩ := fingerprint_of_verified hverified
        have hsaves : (saveFails (hasCert fp) certSave m.state.data ||
            saveFails (hasClient id) clientSave m.state.data) = false := by
          have hrecord : m.pendingClients.get? id = some record := hrecord
          simpa [Call.saveFails, hrecord, hverified, hfp] using h
        obtain ⟨hcert, hclient⟩ := Bool.or_eq_false_iff.mp hsaves
        rw [check_of_verified hrecord hverified, persistCert_eq hfp]
        exact check_stores clientSecret hrecord hfp hcert hclient
      · obtain ⟨hrefused, hsame⟩ := check_of_not_verified certSave clientSave
          fun record hrecord hok => hverified ⟨record, hrecord, hok⟩
        exact ⟨fun _ => congrArg ClientManager.state hsame, fun hok => absurd hok hrefused,
          fun h => by rw [hsame]; exact h⟩

end Calls

/-- The manager, and the operations of which a save has failed. -/
structure Retried (x : Crates) where
  manager : ClientManager x
  failed : List Operation

namespace Retried

def start (m : ClientManager x) : Retried x := ⟨m, []⟩

def step (w : Retried x) (c : Call x) : Option (Retried x) :=
  some ⟨(c.perform w.manager).2, if c.saveFails w.manager then w.failed ++ c.operation.toList else w.failed⟩

end Retried

/-- A call that fails changes nothing in memory, and one whose save failed before leaves
the client and its certificate in memory and on disk when it returns. -/
structure Persists (w : Retried x) (c : Call x) (w' : Retried x) : Prop where
  atomic : (c.perform w.manager).1 = .err → w'.manager.state.data = w.manager.state.data
  retried : ∀ op ∈ c.operation, op ∈ w.failed → (c.perform w.manager).1 = .ok ⟨⟩ → op.Kept w'.manager

/-- No save has failed. -/
def NoneFailed (w : Retried x) : Prop := w.failed = []

/-- In every run of calls, from any state, failures leave memory as it was and can be
retried exactly if no save that is attempted fails. -/
theorem persists_iff (m : ClientManager x) (cs : List (Call x)) :
    EveryStep Retried.step Persists (.start m) cs ↔
      EveryStep Retried.step (fun w c _ => c.saveFails w.manager = false) (.start m) cs := by
  have hstart : NoneFailed (Retried.start m) := rfl
  refine EveryStep.iff_of_inv (fun w c w' hnone hs => ?_) (fun w c w' hnone hs hsaves => ?_) hstart cs
  · cases hs
    cases hfails : c.saveFails w.manager with
    | true =>
      obtain ⟨herr, hne⟩ := perform_of_saveFails hfails
      exact iff_of_false (fun h => hne (h.atomic herr)) (by simp)
    | false =>
      have hstores := perform_of_not_saveFails hfails
      refine iff_of_true ⟨fun herr => ?_, fun op _ hop => ?_⟩ rfl
      · exact congrArg PersistentState.data (hstores.unchanged (by simp [herr]))
      · rw [show w.failed = [] from hnone] at hop
        exact absurd hop List.not_mem_nil
  · cases hs
    simpa [NoneFailed, hsaves] using hnone

/-- Where memory and disk agree and no save fails, a call that returns leaves what it is
about in both, whether or not it failed before. -/
theorem kept_of_not_saveFails {m : ClientManager x} {c : Call x} (hagrees : Agrees m.state)
    (h : c.saveFails m = false) : Agrees (c.perform m).2.state ∧
      ((c.perform m).1 = .ok ⟨⟩ → ∀ op ∈ c.operation, op.Kept (c.perform m).2) := by
  have hstores := perform_of_not_saveFails h
  have hagrees' := hstores.agrees hagrees
  exact ⟨hagrees', fun hok op hop => ⟨hstores.holds hok op hop, _, hagrees', hstores.holds hok op hop⟩⟩

/-- A manager whose state was just loaded, and holds nothing. -/
def loaded : ClientManager exampleCrates :=
  { exampleStart.manager with state := ⟨⟨∅, ∅⟩, some ⟨∅, ∅⟩⟩ }

/-- Where the save fails, the client stays in memory; the retry returns and leaves nothing
on disk. -/
theorem failed_save_kept_in_memory :
    ¬EveryStep Retried.step Persists (.start loaded) [.addClient "a" .failed] ∧
      ∃ w w', exec Retried.step (.start loaded) [.addClient "a" .failed] = some w ∧
        Retried.step w (.addClient "a" .written) = some w' ∧
        ((Call.addClient "a" .written).perform w.manager).1 = .ok ⟨⟩ ∧ .addClient "a" ∈ w.failed ∧
        ¬(Operation.addClient "a").Kept w'.manager := by
  refine ⟨fun h => ?_, _, _, rfl, rfl, rfl, by decide, ?_⟩
  · have hdata := (h _ rfl).1.atomic rfl
    exact absurd (congrArg (hasClient "a") hdata) (by decide)
  · rintro ⟨-, d, hd, hholds⟩
    obtain rfl := Option.some.inj hd
    have hondisk : hasClient "a" ⟨∅, ∅⟩ = true := hholds
    exact absurd hondisk (by decide)

end Moonshine.Proof.Pairing
