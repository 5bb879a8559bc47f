import Moonshine.Proof.Pairing.Records

/-!
# When the hash of a client was committed

A hash that a check compares should be from before the server secret was
returned: it should be what the first response to the challenge stored
(`Committed`). `server_challenge_response` returns the secret and stays open, so
that a later response replaces the hash. A hash is committed exactly if the
first response to the challenge is a whole number of blocks and no later one is
(`InOrder`).
-/

namespace Moonshine.Proof.Pairing

open Moonshine.Framework Moonshine.Impl Moonshine.Impl.Pairing

variable {x : Crates} {certPem keyPem : x.Pem}

def challengeOf : RecordEvent → Option (List Byte)
  | .challengeGenerated challenge => some challenge
  | .pinRegistered | .responseRefused | .hashStored _ | .secretReturned _ => none

/-- The last challenge that was generated, and what happened since. -/
def sinceChallenge (history : List RecordEvent) : Option (List Byte × List RecordEvent) :=
  history.foldl (fun last e => match challengeOf e with
    | some challenge => some (challenge, [])
    | none => last.map fun l => (l.1, l.2 ++ [e])) none

theorem sinceChallenge_concat (history : List RecordEvent) (e : RecordEvent) :
    sinceChallenge (history ++ [e]) = match challengeOf e with
      | some challenge => some (challenge, [])
      | none => (sinceChallenge history).map fun l => (l.1, l.2 ++ [e]) :=
  List.foldl_concat ..

theorem sinceChallenge_append (history es : List RecordEvent) (hes : ∀ e ∈ es, challengeOf e = none) :
    sinceChallenge (history ++ es) = (sinceChallenge history).map fun l => (l.1, l.2 ++ es) := by
  induction es using List.reverseRecOn with
  | nil => simp
  | append_singleton es e ih =>
    rw [← List.append_assoc, sinceChallenge_concat, hes e (by simp), ih fun e he => hes e (by simp [he])]
    simp [Function.comp_def]

/-- The hash of the record is what the first response since its challenge was
generated stored: nothing but PINs came between, and nothing stored one since. -/
def Committed (c : PendingClient x) : Prop :=
  ∃ challenge before hash after,
    sinceChallenge c.history = some (challenge, before ++ .hashStored hash :: after) ∧
    c.serverChallenge = some challenge ∧ c.clientHash = some hash ∧
    (∀ e ∈ before, e = .pinRegistered) ∧ ∀ hash', .hashStored hash' ∉ after

/-- What the requests about a record have come to: whether it has a key, and the
responses since the last challenge was generated. -/
structure Progress where
  pinned : Bool
  responses : Option (List (List Byte))
  deriving DecidableEq, Repr

def Progress.next (certPem : x.Pem) (p : Progress) (r : Request) : Progress :=
  match r with
  | .registerPin _ => { p with pinned := true }
  | .clientChallenge .. =>
    if (generated certPem p.pinned r).isSome then { p with responses := some [] } else p
  | .serverChallengeResponse response =>
    { p with responses := p.responses.map fun rs => rs ++ [response] }

def progress (certPem : x.Pem) (rs : List Request) : Progress :=
  rs.foldl (Progress.next certPem) ⟨false, none⟩

/-- The first response since the last challenge was generated is a whole number
of blocks, and no later one is. -/
def InOrder (certPem : x.Pem) (rs : List Request) : Prop :=
  ∃ response later, (progress certPem rs).responses = some (response :: later) ∧
    response.length % 16 = 0 ∧ ∀ response' ∈ later, response'.length % 16 ≠ 0

theorem progress_append (rs : List Request) (r : Request) :
    progress certPem (rs ++ [r]) = (progress certPem rs).next certPem r :=
  List.foldl_concat ..

/-- The events that responses to one challenge leave, and the hash that the last
of them to store one has stored. -/
inductive Answered : List (List Byte) → List RecordEvent → Option (List Byte) → Prop
  | nil : Answered [] [] none
  | pin {rs : List (List Byte)} {es : List RecordEvent} {stored : Option (List Byte)}
      (h : Answered rs es stored) : Answered rs (es ++ [.pinRegistered]) stored
  | refused {rs : List (List Byte)} {es : List RecordEvent} {stored : Option (List Byte)}
      (h : Answered rs es stored) {r : List Byte} (hr : r.length % 16 ≠ 0) :
      Answered (rs ++ [r]) (es ++ [.responseRefused]) stored
  | stored {rs : List (List Byte)} {es : List RecordEvent} {stored : Option (List Byte)}
      (h : Answered rs es stored) {r : List Byte} (hr : r.length % 16 = 0) (hash : List Byte)
      {returned : List RecordEvent} (hreturned : ∀ e ∈ returned, ∃ secret, e = .secretReturned secret) :
      Answered (rs ++ [r]) (es ++ .hashStored hash :: returned) (some hash)

/-- The part of `Committed` about the events. -/
def CommittedIn (es : List RecordEvent) (stored : Option (List Byte)) : Prop :=
  ∃ before hash after, es = before ++ .hashStored hash :: after ∧ stored = some hash ∧
    (∀ e ∈ before, e = .pinRegistered) ∧ ∀ hash', .hashStored hash' ∉ after

/-- The part of `InOrder` about the responses. -/
def InOrderIn (rs : List (List Byte)) : Prop :=
  ∃ r later, rs = r :: later ∧ r.length % 16 = 0 ∧ ∀ r' ∈ later, r'.length % 16 ≠ 0

theorem committedIn_concat {es : List RecordEvent} {stored : Option (List Byte)} {e : RecordEvent}
    (he : ∀ hash, e ≠ .hashStored hash) : CommittedIn (es ++ [e]) stored ↔ CommittedIn es stored := by
  constructor
  · rintro ⟨before, hash, after, heq, hstored, hbefore, hafter⟩
    rcases after.eq_nil_or_concat with rfl | ⟨after, e', rfl⟩
    · have := (List.append_inj' heq rfl).2
      simp [he hash] at this
    · rw [List.concat_eq_append, ← List.cons_append, ← List.append_assoc] at heq
      refine ⟨before, hash, after, (List.append_inj' heq rfl).1, hstored, hbefore, fun hash' h => ?_⟩
      exact hafter hash' (by simp [h])
  · rintro ⟨before, hash, after, rfl, hstored, hbefore, hafter⟩
    refine ⟨before, hash, after ++ [e], by simp, hstored, hbefore, fun hash' h => ?_⟩
    rcases List.mem_append.mp h with h | h
    · exact hafter hash' h
    · exact he hash' (List.mem_singleton.mp h).symm

theorem committedIn_append {es es' : List RecordEvent} {stored : Option (List Byte)}
    (hes' : ∀ e ∈ es', ∀ hash, e ≠ .hashStored hash) :
    CommittedIn (es ++ es') stored ↔ CommittedIn es stored := by
  induction es' using List.reverseRecOn with
  | nil => rw [List.append_nil]
  | append_singleton es' e ih =>
    rw [← List.append_assoc, committedIn_concat (hes' e (by simp))]
    exact ih fun e he => hes' e (by simp [he])

/-- A hash that was just stored is committed if there were only PINs before. -/
theorem committedIn_stored {es : List RecordEvent} {hash : List Byte} :
    CommittedIn (es ++ [.hashStored hash]) (some hash) ↔ ∀ e ∈ es, e = .pinRegistered := by
  constructor
  · rintro ⟨before, hash', after, heq, -, hbefore, hafter⟩
    rcases after.eq_nil_or_concat with rfl | ⟨after, e', rfl⟩
    · rwa [(List.append_inj' heq rfl).1]
    · rw [List.concat_eq_append, ← List.cons_append, ← List.append_assoc] at heq
      have := (List.append_inj' heq rfl).2
      exact absurd (by simp [← this]) (hafter hash)
  · exact fun h => ⟨es, hash, [], rfl, rfl, h, by simp⟩

theorem Answered.nil_iff {rs : List (List Byte)} {es : List RecordEvent} {stored : Option (List Byte)}
    (h : Answered rs es stored) : rs = [] ↔ ∀ e ∈ es, e = .pinRegistered := by
  induction h with
  | nil => simp
  | pin h ih => simp [ih, or_imp]
  | refused h hr ih => simp [or_imp, forall_and]
  | stored h hr hash hreturned ih => simp [or_imp, forall_and]

theorem Answered.isSome {rs : List (List Byte)} {es : List RecordEvent} {stored : Option (List Byte)}
    (h : Answered rs es stored) {hash : List Byte} (hmem : .hashStored hash ∈ es) : stored.isSome := by
  induction h with
  | nil => simp at hmem
  | pin h ih => exact ih (by simpa using hmem)
  | refused h hr ih => exact ih (by simpa using hmem)
  | stored => rfl

theorem inOrderIn_concat {rs : List (List Byte)} {r : List Byte} (hr : r.length % 16 ≠ 0) :
    InOrderIn (rs ++ [r]) ↔ InOrderIn rs := by
  cases rs with
  | nil => simp [InOrderIn, hr]
  | cons r' rs => simp [InOrderIn, or_imp, forall_and, hr]

theorem inOrderIn_whole {rs : List (List Byte)} {r : List Byte} (hr : r.length % 16 = 0) :
    InOrderIn (rs ++ [r]) ↔ rs = [] := by
  cases rs with
  | nil => simp [InOrderIn, hr]
  | cons r' rs => simp [InOrderIn, or_imp, forall_and, hr]

theorem Answered.committed_iff {rs : List (List Byte)} {es : List RecordEvent}
    {stored : Option (List Byte)} (h : Answered rs es stored) : CommittedIn es stored ↔ InOrderIn rs := by
  induction h with
  | nil => simp [CommittedIn, InOrderIn]
  | pin h ih => rw [committedIn_concat (by simp), ih]
  | refused h hr ih => rw [committedIn_concat (by simp), inOrderIn_concat hr, ih]
  | stored h hr hash hreturned ih =>
    rw [List.append_cons, committedIn_append, committedIn_stored, inOrderIn_whole hr, h.nil_iff]
    rintro e he hash'
    obtain ⟨secret, rfl⟩ := hreturned e he
    simp

/-- The challenge of a record with what happened since, for the responses to it. -/
inductive Tracked (c : PendingClient x) : Option (List (List Byte)) → Prop
  | new (hsince : sinceChallenge c.history = none) (hchallenge : c.serverChallenge = none) :
      Tracked c none
  | challenged {challenge : List Byte} {rs : List (List Byte)} {es : List RecordEvent}
      {stored : Option (List Byte)} (hkey : c.key.isSome)
      (hsince : sinceChallenge c.history = some (challenge, es))
      (hchallenge : c.serverChallenge = some challenge) (hanswered : Answered rs es stored)
      (hstored : ∀ hash, stored = some hash → c.clientHash = some hash) : Tracked c (some rs)

/-- A record whose challenge stays, after the responses `more` with the events `es'`. -/
theorem Tracked.extend {c c' : PendingClient x} {responses responses' : Option (List (List Byte))}
    (h : Tracked c responses) (hkey : c.key.isSome → c'.key.isSome)
    (hchallenge : c'.serverChallenge = c.serverChallenge) (es' : List RecordEvent)
    (hhistory : c'.history = c.history ++ es') (hes' : ∀ e ∈ es', challengeOf e = none)
    (more : List (List Byte)) (hresponses : responses' = responses.map fun rs => rs ++ more)
    (hstep : c.key.isSome → ∀ rs es stored, Answered rs es stored →
      (∀ hash, stored = some hash → c.clientHash = some hash) →
      ∃ stored', Answered (rs ++ more) (es ++ es') stored' ∧
        ∀ hash, stored' = some hash → c'.clientHash = some hash) :
    Tracked c' responses' := by
  rw [hresponses]
  cases h with
  | new hsince hnone =>
    refine .new ?_ (hchallenge.trans hnone)
    rw [hhistory, sinceChallenge_append _ _ hes', hsince, Option.map_none]
  | challenged hpinned hsince hsome hanswered hstored =>
    obtain ⟨stored', hanswered', hstored'⟩ := hstep hpinned _ _ _ hanswered hstored
    refine .challenged (hkey hpinned) ?_ (hchallenge.trans hsome) hanswered' hstored'
    rw [hhistory, sinceChallenge_append _ _ hes', hsince, Option.map_some]

/-- What is kept of a record and the requests about it. -/
def Follows (certPem : x.Pem) (rs : List Request) (c : PendingClient x) : Prop :=
  c.key.isSome = (progress certPem rs).pinned ∧ Tracked c (progress certPem rs).responses

theorem follows_step (rs : List Request) (c : PendingClient x) (r : Request) (c' : PendingClient x)
    (h : Follows certPem rs c) (hserved : Served certPem c r c') : Follows certPem (rs ++ [r]) c' := by
  obtain ⟨hpinned, htracked⟩ := h
  rw [Follows, progress_append]
  cases hserved with
  | registered pin =>
    refine ⟨rfl, htracked.extend (fun _ => rfl) rfl [.pinRegistered] rfl (by simp [challengeOf]) [] ?_ ?_⟩
    · simp [Progress.next]
    · exact fun _ rs es stored hanswered hstored =>
        ⟨stored, by simpa using hanswered.pin, hstored⟩
  | failed hno kept =>
    rw [Progress.next, ← hpinned, hno]
    refine ⟨hpinned, htracked.extend id rfl [] (List.append_nil _).symm (by simp) [] ?_ ?_⟩
    · simp
    · exact fun _ rs es stored hanswered hstored => ⟨stored, by simpa using hanswered, hstored⟩
  | generated hgen =>
    have hkey := pinned_of_generated hgen
    rw [Progress.next, ← hpinned, hgen]
    exact ⟨rfl, .challenged hkey (sinceChallenge_concat ..) rfl .nil nofun⟩
  | refused hno =>
    refine ⟨hpinned, htracked.extend id rfl [.responseRefused] rfl (by simp [challengeOf]) _ rfl ?_⟩
    exact fun hkey rs es stored hanswered hstored =>
      ⟨stored, hanswered.refused fun hwhole => hno ⟨hkey, hwhole⟩, hstored⟩
  | stored hkey hwhole hdecrypted returned hreturned =>
    have hsecrets : ∀ e ∈ returned, ∃ secret, e = .secretReturned secret := fun e he =>
      (hreturned e he).imp fun _ h => h.2
    refine ⟨hpinned, htracked.extend id rfl (.hashStored _ :: returned) rfl (fun e he => ?_) _ rfl ?_⟩
    · rcases List.mem_cons.mp he with rfl | he
      · rfl
      · obtain ⟨secret, rfl⟩ := hsecrets e he
        rfl
    · exact fun _ rs es stored hanswered hstored =>
        ⟨_, hanswered.stored hwhole _ hsecrets, fun hash h => h⟩

theorem committed_iff_committedIn {c : PendingClient x} {challenge : List Byte} {rs : List (List Byte)}
    {es : List RecordEvent} {stored : Option (List Byte)}
    (hsince : sinceChallenge c.history = some (challenge, es))
    (hchallenge : c.serverChallenge = some challenge) (hanswered : Answered rs es stored)
    (hstored : ∀ hash, stored = some hash → c.clientHash = some hash) :
    Committed c ↔ CommittedIn es stored := by
  constructor
  · rintro ⟨challenge', before, hash, after, hsince', -, hhash, hbefore, hafter⟩
    rw [hsince, Option.some.injEq, Prod.mk.injEq] at hsince'
    have hmem : .hashStored hash ∈ es := by simp [hsince'.2]
    obtain ⟨hash', hhash'⟩ := Option.isSome_iff_exists.mp (hanswered.isSome hmem)
    have heq : hash' = hash := Option.some.inj ((hstored hash' hhash').symm.trans hhash)
    exact ⟨before, hash, after, hsince'.2, heq ▸ hhash', hbefore, hafter⟩
  · rintro ⟨before, hash, after, rfl, hhash, hbefore, hafter⟩
    exact ⟨challenge, before, hash, after, hsince, hchallenge, hstored hash hhash, hbefore, hafter⟩

/-- The hash of a record with a challenge is committed if the responses were in order. -/
theorem committed_iff {rs : List Request} {c : PendingClient x} (h : Follows certPem rs c)
    (hchallenge : c.serverChallenge.isSome) : Committed c ↔ InOrder certPem rs := by
  obtain ⟨-, htracked⟩ := h
  generalize hresponses : (progress certPem rs).responses = responses at htracked
  cases htracked with
  | new hsince hnone => simp [hnone] at hchallenge
  | challenged hkey hsince hsome hanswered hstored =>
    rw [committed_iff_committedIn hsince hsome hanswered hstored, hanswered.committed_iff, InOrder,
      hresponses]
    simp only [Option.some.injEq, InOrderIn]

theorem follows_replay (certPem keyPem : x.Pem) (id : String) (pem : x.Pem) (salt : List Byte)
    (rs : List Request) :
    Follows certPem rs (replay certPem keyPem (PendingClient.new id pem salt) rs) :=
  replay_inv ⟨rfl, .new rfl rfl⟩ follows_step rs

/-- Whenever a check succeeds, the hash it compared was committed exactly if the
responses to the challenge of the record were in order. -/
theorem hash_committed_iff {state : PersistentState} {acts : List (Action x)} {w : World x} {id : String}
    {clientSecret : List Byte} {certSave clientSave : SaveResult}
    (h : exec step (World.start state certPem keyPem) acts = some w)
    (hok : (perform (.checkClientPairingSecret id clientSecret certSave clientSave) w.manager).1 =
      .ok ⟨⟩) :
    ∃ a c, attempt id acts = some a ∧ w.manager.pendingClients.get? id = some c ∧
      (Committed c ↔ InOrder certPem a.requests) := by
  have hrecorded : Recorded certPem keyPem w := exec_inv recorded_step (recorded_start ..) h
  rcases check_persisted w.manager id clientSecret certSave clientSave with
    ⟨hfailed, -⟩ | ⟨c, hc, hverify, -⟩
  · exact absurd hok hfailed
  · obtain ⟨challenge, -, hchallenge, -⟩ := verifyPairingSecret_eq_ok hverify
    obtain ⟨a, ha, hrecord⟩ := Option.map_eq_some_iff.mp ((hrecorded.records id).symm.trans hc)
    have hfollows := follows_replay certPem keyPem id a.pem a.salt a.requests
    rw [trace_exec h] at ha
    rw [← Attempt.record, hrecord] at hfollows
    exact ⟨a, c, ha, hc, committed_iff hfollows (by rw [hchallenge]; rfl)⟩

theorem exampleRun_committed : ∃ w c, exec step exampleStart exampleRun = some w ∧
    w.manager.pendingClients.get? "a" = some c ∧ Committed c := by
  have hrun : (exec step exampleStart exampleRun).map (fun w => (perform exampleCheck w.manager).1) =
      some (.ok ⟨⟩) := by
    decide +kernel
  obtain ⟨w, hw, hok⟩ := Option.map_eq_some_iff.mp hrun
  obtain ⟨a, c, ha, hc, hiff⟩ := hash_committed_iff hw hok
  obtain ⟨rfl⟩ : _ = a := Option.some.inj ha
  exact ⟨w, c, hw, hc, hiff.mpr ⟨exampleResponse, [], by decide +kernel, by decide +kernel, by simp⟩⟩

/-- The same with a response of zeros before. -/
def repeatedRun : List (Action exampleCrates) :=
  exampleRun.take 3 ++ .request "a" (.serverChallengeResponse (beBytes 16 0)) :: exampleRun.drop 3

/-- The secret has been returned when the hash that the check compares is stored. -/
theorem hash_after_secret : ∃ w c, exec step exampleStart repeatedRun = some w ∧
    w.manager.pendingClients.get? "a" = some c ∧ (perform exampleCheck w.manager).1 = .ok ⟨⟩ ∧
    ¬ Committed c := by
  have hrun : (exec step exampleStart repeatedRun).bind (fun w =>
      (w.manager.pendingClients.get? "a").map fun c =>
        ((perform exampleCheck w.manager).1, c.clientHash, sinceChallenge c.history)) =
      some (.ok ⟨⟩, some exampleHash, some (exampleServerChallenge,
        [.hashStored (beBytes 16 0x9b91a34fa3d2c1114420fe840c1a4fc1), .secretReturned exampleServerSecret,
          .hashStored exampleHash, .secretReturned exampleServerSecret])) := by
    decide +kernel
  obtain ⟨w, hw, hc⟩ := Option.bind_eq_some_iff.mp hrun
  obtain ⟨c, hc, heq⟩ := Option.map_eq_some_iff.mp hc
  simp only [Prod.mk.injEq] at heq
  obtain ⟨hok, hhash, hsince⟩ := heq
  refine ⟨w, c, hw, hc, hok, ?_⟩
  rintro ⟨challenge, before, hash, after, hsince', -, hhash', hbefore, hafter⟩
  rw [hsince, Option.some.injEq, Prod.mk.injEq] at hsince'
  cases before with
  | nil =>
    apply hafter exampleHash
    rw [← (List.cons.inj hsince'.2).2]
    simp
  | cons e before =>
    have he := hbefore e List.mem_cons_self
    rw [← (List.cons.inj hsince'.2).1] at he
    simp at he

end Moonshine.Proof.Pairing
