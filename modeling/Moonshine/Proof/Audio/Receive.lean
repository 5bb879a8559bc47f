import Moonshine.Impl.Audio.Receive
import Moonshine.Proof.Audio.Events

/-!
# How `recv` ends

The messages of a client are cut out of its bytes by their descriptors, however
the reads cut them (`handleMessages_receive`), so what comes of the data is a
function of all its bytes. A read that would block or fails ends the loop; one
that returns no bytes leaves everything as it was and is followed by the next.
So `recv` returns in time exactly if the data is refused before it runs out, or
runs out otherwise than at the end of the file (`recv_terminates_iff`).
-/

namespace Moonshine.Proof.Receive

open Moonshine.Framework Moonshine.Impl Moonshine.Impl.Audio Moonshine.Proof.PulseServer

variable {r : Resampler} {p : Protocol}

/-! ## The front of the buffer -/

/-- More bytes in the incoming buffer. -/
def received (more : List Byte) (s : Peer r) : Peer r := { s with incoming := s.incoming ++ more }

theorem nextMessage_message {l payload rest : List Byte} {desc : Descriptor}
    (h : nextMessage p l = .message desc payload rest) (more : List Byte) :
    rest.length < l.length ∧ nextMessage p (l ++ more) = .message desc payload (rest ++ more) := by
  unfold nextMessage at h ⊢
  split_ifs at h with hlen
  have htake : (l ++ more).take descriptorSize = l.take descriptorSize :=
    List.take_append_of_le_length (Nat.not_lt.mp hlen)
  have hdrop : (l ++ more).drop descriptorSize = l.drop descriptorSize ++ more :=
    List.drop_append_of_le_length (Nat.not_lt.mp hlen)
  have hmore : ¬ (l ++ more).length < descriptorSize := by
    rw [List.length_append]
    omega
  rw [if_neg hmore, htake, hdrop]
  cases hd : p.readDescriptor (l.take descriptorSize) with
  | none =>
    rw [hd] at h
    cases h
  | some d =>
    rw [hd] at h
    dsimp only at h ⊢
    split_ifs at h with hmax hshort
    cases h
    have hlong : ¬ (l ++ more).length < desc.length.toNat + descriptorSize := by
      rw [List.length_append]
      omega
    have hle : desc.length.toNat ≤ (l.drop descriptorSize).length := by
      rw [List.length_drop]
      omega
    rw [if_neg hmax, if_neg hlong, List.take_append_of_le_length hle, List.drop_append_of_le_length hle]
    refine ⟨?_, rfl⟩
    have hpos : 0 < descriptorSize := by decide
    rw [List.length_drop, List.length_drop]
    omega

theorem nextMessage_invalid {l : List Byte} (h : nextMessage p l = .invalid) (more : List Byte) :
    nextMessage p (l ++ more) = .invalid := by
  unfold nextMessage at h ⊢
  split_ifs at h with hlen
  have htake : (l ++ more).take descriptorSize = l.take descriptorSize :=
    List.take_append_of_le_length (Nat.not_lt.mp hlen)
  have hmore : ¬ (l ++ more).length < descriptorSize := by
    rw [List.length_append]
    omega
  rw [if_neg hmore, htake]
  cases hd : p.readDescriptor (l.take descriptorSize) with
  | none => rfl
  | some d =>
    rw [hd] at h
    dsimp only at h ⊢
    split_ifs at h with hmax
    exact if_pos hmax

theorem nextMessage_nil : nextMessage p [] = .incomplete := if_pos (by decide)

/-! ## A message -/

theorem handled_received (s : Peer r) (x : Outcome (ServerState × Client r × List Message)) (more : List Byte) :
    handled (received more s) x = ((handled s x).1, received more (handled s x).2) := by
  rcases x with ⟨server, client, messages⟩ | _ | _ <;> rfl

theorem reported_received (seq : UInt32) (o : Outcome Unit) (s : Peer r) (more : List Byte) :
    reported seq (o, received more s) = ((reported seq (o, s)).1, received more (reported seq (o, s)).2) := by
  cases o <;> rfl

/-- Handling a message does not look at the bytes behind it. -/
theorem handleMessage_received (desc : Descriptor) (payload : List Byte) (s : Peer r) (more : List Byte) :
    handleMessage p desc payload (received more s) =
      ((handleMessage p desc payload s).1, received more (handleMessage p desc payload s).2) := by
  unfold handleMessage
  split
  · show handleDecoded p (p.readTagPrefixed payload s.protocolVersion) (received more s) = _
    cases p.readTagPrefixed payload s.protocolVersion with
    | command seq cmd =>
      show reported seq (handled (received more s) (handleCommand seq cmd s.server s.client)) = _
      rw [handled_received]
      exact reported_received seq _ _ more
    | unimplemented seq => rfl
    | invalid => rfl
    | auth seq version => rfl
    | other seq => rfl
  · exact handled_received s _ more

theorem incoming_handled (s : Peer r) (x : Outcome (ServerState × Client r × List Message)) :
    (handled s x).2.incoming = s.incoming := by
  rcases x with ⟨server, client, messages⟩ | _ | _ <;> rfl

theorem incoming_reported (seq : UInt32) (x : Outcome Unit × Peer r) :
    (reported seq x).2.incoming = x.2.incoming := by
  rcases x with ⟨_ | _ | _, s⟩ <;> rfl

theorem incoming_handleMessage (desc : Descriptor) (payload : List Byte) (s : Peer r) :
    (handleMessage p desc payload s).2.incoming = s.incoming := by
  unfold handleMessage
  split
  · cases p.readTagPrefixed payload s.protocolVersion with
    | command seq cmd => exact (incoming_reported seq _).trans (incoming_handled s _)
    | unimplemented seq => rfl
    | invalid => rfl
    | auth seq version => rfl
    | other seq => rfl
  · exact incoming_handled s _

/-! ## The inner loop -/

/-- Fuel for every byte is enough. -/
theorem handleMessagesFrom_eq {fuel fuel' : Nat} {s : Peer r} (h : s.incoming.length ≤ fuel)
    (h' : s.incoming.length ≤ fuel') : handleMessagesFrom p fuel s = handleMessagesFrom p fuel' s := by
  have hempty : ∀ {fuel : Nat} {s : Peer r}, s.incoming = [] → handleMessagesFrom p fuel s = (.ok (), s) := by
    intro fuel s hs
    cases fuel with
    | zero => rfl
    | succ fuel =>
      rw [handleMessagesFrom, Prog.gets_bind, hs, nextMessage_nil]
      rfl
  induction fuel generalizing fuel' s with
  | zero =>
    have hs : s.incoming = [] := List.length_eq_zero_iff.mp (by omega)
    rw [hempty hs, hempty hs]
  | succ fuel ih =>
    cases fuel' with
    | zero =>
      have hs : s.incoming = [] := List.length_eq_zero_iff.mp (by omega)
      rw [hempty hs, hempty hs]
    | succ fuel' =>
      rw [handleMessagesFrom, handleMessagesFrom, Prog.gets_bind, Prog.gets_bind]
      cases hnext : nextMessage p s.incoming with
      | incomplete => rfl
      | invalid => rfl
      | message desc payload rest =>
        have hlt := (nextMessage_message hnext []).1
        dsimp only
        rw [Prog.modify_bind, Prog.modify_bind]
        refine Prog.bind_congr fun _ m hm => ?_
        have hrest := incoming_handleMessage (p := p) desc payload { s with incoming := rest }
        rw [hm] at hrest
        have hlen : m.incoming.length = rest.length := congrArg List.length hrest
        exact ih (by omega) (by omega)

theorem handleMessages_incomplete {s : Peer r} (h : nextMessage p s.incoming = .incomplete) :
    handleMessages p s = (.ok (), s) := by
  unfold handleMessages
  cases s.incoming.length with
  | zero => rfl
  | succ n =>
    rw [handleMessagesFrom, Prog.gets_bind, h]
    rfl

theorem ne_nil_of_next {l : List Byte} (h : nextMessage p l ≠ .incomplete) : 0 < l.length := by
  refine List.length_pos_iff.mpr fun hl => h ?_
  rw [hl]
  exact nextMessage_nil

theorem handleMessages_invalid {s : Peer r} (h : nextMessage p s.incoming = .invalid) :
    handleMessages p s = (.err, s) := by
  have hpos := ne_nil_of_next (by rw [h]; nofun)
  unfold handleMessages
  obtain ⟨n, hn⟩ := Nat.exists_eq_add_one_of_ne_zero (Nat.ne_of_gt hpos)
  rw [hn, handleMessagesFrom, Prog.gets_bind, h]
  rfl

theorem handleMessages_message {s : Peer r} {desc : Descriptor} {payload rest : List Byte}
    (h : nextMessage p s.incoming = .message desc payload rest) :
    handleMessages p s =
      (handleMessage p desc payload >>= fun _ => handleMessages p) { s with incoming := rest } := by
  have hlt := (nextMessage_message h []).1
  show handleMessagesFrom p s.incoming.length s = _
  obtain ⟨n, hn⟩ := Nat.exists_eq_add_one_of_ne_zero (Nat.ne_of_gt (show 0 < s.incoming.length by omega))
  rw [hn, handleMessagesFrom, Prog.gets_bind, h]
  dsimp only
  rw [Prog.modify_bind]
  refine Prog.bind_congr fun _ m hm => ?_
  have hrest := incoming_handleMessage (p := p) desc payload { s with incoming := rest }
  rw [hm] at hrest
  have hlen : m.incoming.length = rest.length := congrArg List.length hrest
  exact handleMessagesFrom_eq (by omega) (Nat.le_refl _)

/-- The induction that the messages follow. -/
theorem messages_induction {P : Peer r → Prop} (incomplete : ∀ s, nextMessage p s.incoming = .incomplete → P s)
    (invalid : ∀ s, nextMessage p s.incoming = .invalid → P s)
    (message : ∀ s desc payload rest, nextMessage p s.incoming = .message desc payload rest →
      (∀ m, handleMessage p desc payload { s with incoming := rest } = (.ok (), m) → P m) → P s) (s : Peer r) :
    P s := by
  induction hlen : s.incoming.length using Nat.strongRecOn generalizing s with
  | ind n ih =>
    cases h : nextMessage p s.incoming with
    | incomplete => exact incomplete s h
    | invalid => exact invalid s h
    | message desc payload rest =>
      refine message s desc payload rest h fun m hm => ih m.incoming.length ?_ m rfl
      have hlt := (nextMessage_message h []).1
      have hrest := incoming_handleMessage (p := p) desc payload { s with incoming := rest }
      rw [hm] at hrest
      have : m.incoming.length = rest.length := congrArg List.length hrest
      omega

/-- The loop ends at a message that is not complete. -/
theorem incomplete_of_handleMessages {s m : Peer r} (h : handleMessages p s = (.ok (), m)) :
    nextMessage p m.incoming = .incomplete := by
  induction s using messages_induction (p := p) with
  | incomplete s hs =>
    rw [handleMessages_incomplete hs] at h
    cases h
    exact hs
  | invalid s hs =>
    rw [handleMessages_invalid hs] at h
    cases h
  | message s desc payload rest hs ih =>
    rw [handleMessages_message hs] at h
    obtain ⟨_, m', hm, h⟩ := Prog.bind_eq_ok.mp h
    exact ih m' hm h

/-- Bytes that come later are handled after those before, with the part of a
message that those ended in. -/
theorem handleMessages_received (s : Peer r) (more : List Byte) :
    (∀ m, handleMessages p s = (.ok (), m) → handleMessages p (received more s) = handleMessages p (received more m)) ∧
      ((handleMessages p s).1 ≠ .ok () → (handleMessages p (received more s)).1 = (handleMessages p s).1) := by
  induction s using messages_induction (p := p) with
  | incomplete s hs =>
    rw [handleMessages_incomplete hs]
    refine ⟨fun m hm => ?_, fun h => absurd rfl h⟩
    cases hm
    rfl
  | invalid s hs =>
    have hmore : nextMessage p (received more s).incoming = .invalid := nextMessage_invalid hs more
    rw [handleMessages_invalid hs, handleMessages_invalid hmore]
    exact ⟨nofun, fun _ => rfl⟩
  | message s desc payload rest hs ih =>
    have hmore : nextMessage p (received more s).incoming = .message desc payload (rest ++ more) :=
      (nextMessage_message hs more).2
    have hhandle := handleMessage_received (p := p) desc payload { s with incoming := rest } more
    rw [handleMessages_message hs, handleMessages_message hmore,
      show ({ received more s with incoming := rest ++ more } : Peer r) = received more { s with incoming := rest } from rfl]
    rcases hm : handleMessage p desc payload { s with incoming := rest } with ⟨_ | _ | _, m⟩
    · rw [hm] at hhandle
      rw [Prog.bind_of_ok hm, Prog.bind_of_ok hhandle]
      exact ih m hm
    · rw [hm] at hhandle
      rw [Prog.bind_of_err hm, Prog.bind_of_err hhandle]
      exact ⟨nofun, fun _ => rfl⟩
    · rw [hm] at hhandle
      rw [Prog.bind_of_panic hm, Prog.bind_of_panic hhandle]
      exact ⟨nofun, fun _ => rfl⟩

/-! ## The reads -/

/-- What comes of the data of some reads. -/
def handleReads (p : Protocol) : List (List Byte) → Prog (Peer r) Unit
  | [] => pure ()
  | bytes :: data => fun s => (handleMessages p >>= fun _ => handleReads p data) (received bytes s)

theorem handleReads_flatten (bytes : List Byte) (data : List (List Byte)) (s : Peer r) :
    (handleReads p (bytes :: data) s).1 = (handleMessages p (received (bytes :: data).flatten s)).1 := by
  induction data generalizing bytes s with
  | nil =>
    show ((handleMessages p >>= fun _ => pure ()) (received bytes s)).1 = _
    rw [List.flatten_singleton]
    rcases hm : handleMessages p (received bytes s) with ⟨_ | _ | _, m⟩
    · rw [Prog.bind_of_ok hm]
      rfl
    · rw [Prog.bind_of_err hm]
    · rw [Prog.bind_of_panic hm]
  | cons c data ih =>
    have hsplit : received (bytes :: c :: data).flatten s = received (c :: data).flatten (received bytes s) := by
      rw [List.flatten_cons]
      exact congrArg (fun l => ({ s with incoming := l } : Peer r)) (List.append_assoc ..).symm
    obtain ⟨hok, hend⟩ := handleMessages_received (p := p) (received bytes s) (c :: data).flatten
    show ((handleMessages p >>= fun _ => handleReads p (c :: data)) (received bytes s)).1 = _
    rw [hsplit]
    rcases hm : handleMessages p (received bytes s) with ⟨_ | _ | _, m⟩
    · rw [Prog.bind_of_ok hm, hok m hm]
      exact ih c m
    · rw [hm] at hend
      rw [Prog.bind_of_err hm, hend nofun]
    · rw [hm] at hend
      rw [Prog.bind_of_panic hm, hend nofun]

theorem incomplete_of_handleReads {data : List (List Byte)} {s m : Peer r}
    (hs : nextMessage p s.incoming = .incomplete) (h : handleReads p data s = (.ok (), m)) :
    nextMessage p m.incoming = .incomplete := by
  induction data generalizing s with
  | nil =>
    cases h
    exact hs
  | cons bytes data ih =>
    obtain ⟨_, m', hm, h⟩ := Prog.bind_eq_ok.mp h
    exact ih (incomplete_of_handleMessages hm) h

section

variable {reads : Nat → ReadResult}

theorem recvFrom_data {bytes : List Byte} {i : Nat} (h : reads i = .data bytes) (fuel : Nat) (s : Peer r) :
    recvFrom p reads (fuel + 1) i s = match handleMessages p (received bytes s) with
      | (.ok _, s) => recvFrom p reads fuel (i + 1) s
      | (result, s) => some ⟨result, i + 1, s⟩ := by
  rw [recvFrom, h]
  rfl

/-- The loop over reads that return data. -/
theorem recvFrom_reads {data : List (List Byte)} {i : Nat}
    (h : ∀ j bytes, data[j]? = some bytes → reads (i + j) = .data bytes) (s : Peer r) :
    (∀ m, handleReads p data s = (.ok (), m) → ∀ fuel,
      recvFrom p reads (fuel + data.length) i s = recvFrom p reads fuel (i + data.length) m) ∧
    ∀ m o, handleReads p data s = (o, m) → o ≠ .ok () → ∃ n ≤ data.length, ∀ fuel,
      recvFrom p reads (fuel + data.length) i s = some ⟨o, i + n, m⟩ := by
  induction data generalizing i s with
  | nil =>
    refine ⟨fun m hm fuel => ?_, fun m o hm ho => ?_⟩
    · cases hm
      rfl
    · cases hm
      exact absurd rfl ho
  | cons bytes data ih =>
    have hread : reads i = .data bytes := h 0 bytes rfl
    have hlater : ∀ j bytes, data[j]? = some bytes → reads (i + 1 + j) = .data bytes := fun j b hj => by
      rw [Nat.add_assoc, Nat.add_comm 1 j]
      exact h (j + 1) b hj
    have hstep : ∀ fuel, recvFrom p reads (fuel + (bytes :: data).length) i s =
        match handleMessages p (received bytes s) with
        | (.ok _, s) => recvFrom p reads (fuel + data.length) (i + 1) s
        | (result, s) => some ⟨result, i + 1, s⟩ := fun fuel => recvFrom_data hread (fuel + data.length) s
    have hindex : i + (bytes :: data).length = i + 1 + data.length := by
      rw [List.length_cons]
      omega
    have hreads : handleReads p (bytes :: data) s = (handleMessages p >>= fun _ => handleReads p data) (received bytes s) := rfl
    rcases hm : handleMessages p (received bytes s) with ⟨_ | _ | _, m'⟩
    · obtain ⟨hok, hend⟩ := ih hlater m'
      rw [hreads, Prog.bind_of_ok hm, hindex]
      refine ⟨fun m hdata fuel => ?_, fun m o hdata ho => ?_⟩
      · rw [hstep, hm]
        exact hok m hdata fuel
      · obtain ⟨n, hn, hret⟩ := hend m o hdata ho
        refine ⟨n + 1, Nat.succ_le_succ hn, fun fuel => ?_⟩
        rw [hstep, hm, Nat.add_comm n, ← Nat.add_assoc]
        exact hret fuel
    · rw [hreads, Prog.bind_of_err hm]
      refine ⟨nofun, fun m o hdata _ => ⟨1, Nat.succ_le_succ (Nat.zero_le _), fun fuel => ?_⟩⟩
      cases hdata
      rw [hstep, hm]
    · rw [hreads, Prog.bind_of_panic hm]
      refine ⟨nofun, fun m o hdata _ => ⟨1, Nat.succ_le_succ (Nat.zero_le _), fun fuel => ?_⟩⟩
      cases hdata
      rw [hstep, hm]

/-- More fuel changes nothing once `recv` has returned; it has read on by then. -/
theorem recvFrom_more {fuel i : Nat} {s : Peer r} {out : Returned r} (h : recvFrom p reads fuel i s = some out)
    (more : Nat) : recvFrom p reads (fuel + more) i s = some out ∧ i < out.reads := by
  induction fuel generalizing i s with
  | zero => cases h
  | succ fuel ih =>
    rw [Nat.add_right_comm]
    unfold recvFrom at h ⊢
    cases hread : reads i with
    | wouldBlock =>
      rw [hread] at h
      cases h
      exact ⟨rfl, Nat.lt_succ_self i⟩
    | failed =>
      rw [hread] at h
      cases h
      exact ⟨rfl, Nat.lt_succ_self i⟩
    | data bytes =>
      rw [hread] at h
      dsimp only at h ⊢
      rcases hm : handleMessages p { s with incoming := s.incoming ++ bytes } with ⟨_ | _ | _, m⟩
      · rw [hm] at h
        obtain ⟨hmore, hlt⟩ := ih h
        exact ⟨hmore, Nat.lt_of_succ_lt hlt⟩
      · rw [hm] at h
        cases h
        exact ⟨rfl, Nat.lt_succ_self i⟩
      · rw [hm] at h
        cases h
        exact ⟨rfl, Nat.lt_succ_self i⟩

/-- At the end of the file, a read changes nothing but their number. -/
theorem recvFrom_eof {i : Nat} (h : reads i = .data []) {s : Peer r}
    (hs : nextMessage p s.incoming = .incomplete) (fuel : Nat) :
    recvFrom p reads (fuel + 1) i s = recvFrom p reads fuel (i + 1) s := by
  have hsame : received [] s = s := congrArg (fun l => ({ s with incoming := l } : Peer r)) (List.append_nil _)
  rw [recvFrom_data h, hsame, handleMessages_incomplete hs]

end

/-! ## The loop -/

/-- A client between two calls of `recv`: no complete message waits in its
buffer. -/
structure Waiting (p : Protocol) (r : Resampler) extends Peer r where
  incomplete : nextMessage p incoming = .incomplete

/-- A client that has just connected. -/
def Waiting.connect (p : Protocol) (server : ServerState) : Waiting p r where
  server := server
  client := ⟨OrdMap.empty⟩
  protocolVersion := p.maxVersion
  incoming := []
  outgoing := []
  incomplete := nextMessage_nil

/-- Where `recv` returns without an error, the client waits again. -/
theorem waiting_of_recvFrom {reads : Nat → ReadResult} {fuel i : Nat} {s : Peer r} {out : Returned r}
    (hs : nextMessage p s.incoming = .incomplete) (h : recvFrom p reads fuel i s = some out)
    (hok : out.result = .ok ()) : nextMessage p out.peer.incoming = .incomplete := by
  induction fuel generalizing i s with
  | zero => cases h
  | succ fuel ih =>
    unfold recvFrom at h
    cases hread : reads i with
    | wouldBlock =>
      rw [hread] at h
      cases h
      exact hs
    | failed =>
      rw [hread] at h
      cases h
      cases hok
    | data bytes =>
      rw [hread] at h
      dsimp only at h
      rcases hm : handleMessages p { s with incoming := s.incoming ++ bytes } with ⟨_ | _ | _, m⟩
      · rw [hm] at h
        exact ih (incomplete_of_handleMessages hm) h
      · rw [hm] at h
        cases h
        cases hok
      · rw [hm] at h
        cases h
        cases hok

/-- The reads return `data`, and then `last`, which is no more of it. -/
structure Ends (reads : Nat → ReadResult) (data : List (List Byte)) (last : ReadResult) : Prop where
  available : ∀ i bytes, data[i]? = some bytes → reads i = .data bytes
  nonempty : ∀ bytes ∈ data, bytes ≠ []
  next : reads data.length = last
  exhausted : ∀ bytes, last = .data bytes → bytes = []

/-- Whatever the reads return: once the data that is there is used up, `recv` has
returned, without reading on after what ended it; and the end of the file makes it
return an error, for which the client is removed. -/
def Terminates (p : Protocol) (reads : Nat → ReadResult) (s : Peer r) : Prop :=
  ∀ data last, Ends reads data last → ∃ fuel out, recv p reads fuel s = some out ∧ out.result ≠ .panic ∧
    out.reads ≤ data.length + 1 ∧ ∀ i < out.reads, reads i = .data [] → out.result = .err ∧ out.reads = i + 1

/-- What comes of the messages that the data completes. -/
def dataResult (p : Protocol) (s : Peer r) (data : List (List Byte)) : Outcome Unit :=
  (handleMessages p (received data.flatten s)).1

theorem dataResult_eq (s : Waiting p r) (data : List (List Byte)) :
    dataResult p s.toPeer data = (handleReads p data s.toPeer).1 := by
  cases data with
  | nil =>
    have hsame : received [] s.toPeer = s.toPeer :=
      congrArg (fun l => ({ s.toPeer with incoming := l } : Peer r)) (List.append_nil _)
    rw [dataResult, List.flatten_nil, hsame, handleMessages_incomplete s.incomplete]
    rfl
  | cons bytes data => exact (handleReads_flatten bytes data s.toPeer).symm

theorem Ends.ne_eof {reads : Nat → ReadResult} {data : List (List Byte)} {last : ReadResult}
    (h : Ends reads data last) {i : Nat} (hi : i < data.length) : reads i ≠ .data [] := by
  have hget : data[i]? = some data[i] := List.getElem?_eq_getElem hi
  rw [h.available i _ hget]
  intro heq
  exact h.nonempty _ (List.getElem_mem hi) (ReadResult.data.inj heq)

/-- `recv` returns in time, whatever the reads return, exactly if the messages in
the data are handled, and one of them is refused or the data does not run out at
the end of the file. -/
theorem recv_terminates_iff (p : Protocol) (reads : Nat → ReadResult) (s : Waiting p r) :
    Terminates p reads s.toPeer ↔ ∀ data last, Ends reads data last →
      dataResult p s.toPeer data = .err ∨ (dataResult p s.toPeer data = .ok () ∧ last ≠ .data []) := by
  refine forall_congr' fun data => forall_congr' fun last => forall_congr' fun h => ?_
  have hdata : ∀ j bytes, data[j]? = some bytes → reads (0 + j) = .data bytes := fun j b hj => by
    rw [Nat.zero_add]
    exact h.available j b hj
  obtain ⟨hok, hend⟩ := recvFrom_reads (p := p) hdata s.toPeer
  rw [dataResult_eq]
  rcases hm : handleReads p data s.toPeer with ⟨_ | _ | _, m⟩
  · -- The data is handled: what follows it decides.
    have hwait := incomplete_of_handleReads s.incomplete hm
    have hafter := fun fuel => hok m hm fuel
    rw [Nat.zero_add] at hafter
    refine ⟨fun ⟨fuel, out, hrecv, _, hle, _⟩ => Or.inr ⟨rfl, fun heof => ?_⟩, fun hlast => ?_⟩
    · obtain ⟨hmore, -⟩ := recvFrom_more hrecv (data.length + 1)
      have hread : reads data.length = .data [] := h.next.trans heof
      rw [show fuel + (data.length + 1) = fuel + 1 + data.length by omega, hafter, recvFrom_eof hread hwait] at hmore
      have hlt := (recvFrom_more hmore 0).2
      omega
    · obtain ⟨-, hne⟩ := hlast.resolve_left nofun
      have hat : ∀ i < data.length + 1, reads i ≠ .data [] := fun i hi heof => by
        rcases Nat.lt_succ_iff_lt_or_eq.mp hi with hlt | rfl
        · exact h.ne_eof hlt heof
        · exact hne (h.next.symm.trans heof)
      cases hl : last with
      | data bytes => exact absurd (by rw [hl, h.exhausted bytes hl]) hne
      | wouldBlock =>
        have hread : reads data.length = .wouldBlock := h.next.trans hl
        refine ⟨1 + data.length, ⟨.ok (), data.length + 1, m⟩, ?_, nofun, Nat.le_refl _, fun i hi heof =>
          absurd heof (hat i hi)⟩
        exact (hafter 1).trans (by rw [recvFrom, hread])
      | failed =>
        have hread : reads data.length = .failed := h.next.trans hl
        refine ⟨1 + data.length, ⟨.err, data.length + 1, m⟩, ?_, nofun, Nat.le_refl _, fun i hi heof =>
          absurd heof (hat i hi)⟩
        exact (hafter 1).trans (by rw [recvFrom, hread])
  · -- A message is refused before the data runs out.
    obtain ⟨n, hn, hret⟩ := hend m .err hm nofun
    rw [Nat.zero_add] at hret
    refine ⟨fun _ => Or.inl rfl, fun _ => ⟨0 + data.length, ⟨.err, n, m⟩, hret 0, nofun, Nat.le_succ_of_le hn,
      fun i hi heof => ?_⟩⟩
    exact absurd heof (h.ne_eof (Nat.lt_of_lt_of_le hi hn))
  · -- Or makes its handler panic.
    obtain ⟨n, hn, hret⟩ := hend m .panic hm nofun
    refine ⟨fun ⟨fuel, out, hrecv, hpanic, _⟩ => ?_, fun hlast => ?_⟩
    · obtain ⟨hmore, -⟩ := recvFrom_more hrecv data.length
      rw [hret] at hmore
      cases hmore
      exact absurd rfl hpanic
    · rcases hlast with hlast | ⟨hlast, -⟩ <;> cases hlast

/-- A protocol of big-endian descriptors that can read no command. -/
def exampleProtocol : Protocol where
  maxVersion := 35
  readDescriptor bytes := some ⟨UInt32.ofNat (ofBe (slice bytes 0 4)), UInt32.ofNat (ofBe (slice bytes 4 4))⟩
  readTagPrefixed _ _ := .invalid

/-- At the end of the file `recv` reads on for ever. -/
theorem recv_eof (s : Waiting p r) (fuel : Nat) : recv p (fun _ => .data []) fuel s.toPeer = none := by
  have hloop : ∀ i, recvFrom p (fun _ => .data []) fuel i s.toPeer = none := by
    induction fuel with
    | zero => exact fun _ => rfl
    | succ fuel ih =>
      intro i
      rw [recvFrom_eof rfl s.incomplete]
      exact ih (i + 1)
  exact hloop 0

/-- A client that connects and closes its socket at once. -/
theorem recv_of_closed_socket :
    ¬ Terminates exampleProtocol (fun _ => .data [])
      (Waiting.connect (r := exampleResampler) exampleProtocol exampleStart.server).toPeer := by
  intro h
  have hends : Ends (fun _ => .data []) [] (.data []) :=
    ⟨nofun, nofun, rfl, fun bytes hbytes => (ReadResult.data.inj hbytes).symm⟩
  obtain ⟨fuel, out, hrecv, -⟩ := h [] (.data []) hends
  rw [recv_eof] at hrecv
  cases hrecv

end Moonshine.Proof.Receive
