import Moonshine.Framework.Run
import Moonshine.Proof.Video.Epochs

/-!
# Frames in flight

What the encode loop and the packet consumer have between them: the messages in the
channel, the one being sent, the frame being processed and the counter (`Load`). A
step of the two is one of a few moves of the load (`moves_of_step`). The counter is
the number of frames on their way, of which at most three went through the gate, and
it never underflows. Resets and re-encodes are not gated; as long as few of them wait
in the channel, there is room for every message: `bounded_of_few_ungated`.
-/

namespace Moonshine.Proof.InFlight

open Moonshine.Framework Moonshine.Impl Moonshine.Impl.Pipeline
open Moonshine.Impl.Packetizer (Crates)

variable {x : Crates}

/-! ## The load -/

structure Load where
  waiting : List ConsumerMessage
  sending : Option ConsumerMessage
  processing : Option Nat
  inFlight : Nat
  /-- The display order of the next frame that is submitted. -/
  submitted : Nat

def load (s : State x) : Load :=
  ⟨s.queue, s.loop.outbox.map Prod.fst, s.consumer.processing, s.inFlight, s.encoder.displayOrder⟩

def frame? : ConsumerMessage → Option Nat
  | .frame displayOrder => some displayOrder
  | .resetCounters => none

namespace Load

/-- The frames on their way, by display order: processed, in the channel, being sent. -/
def frames (l : Load) : List Nat :=
  l.processing.toList ++ l.waiting.filterMap frame? ++ (l.sending.bind frame?).toList

/-- The resets in the channel. -/
def resets (l : Load) : Nat := l.waiting.count .resetCounters

end Load

/-- What the loop decides to send. -/
inductive Offer
  | nothing | reset | gated | reencode
  deriving DecidableEq, Repr

/-- An action's decision to send, from the state before it. -/
def offer (s : State x) : Action → Offer
  | .drainResets pending => if pending then .reset else .nothing
  | .receive (.timeout encoded) =>
    if s.loop.pendingIdr && s.loop.hasEncoded && encoded then .reencode else .nothing
  | .receive (.frame .encoded) => if s.inFlight < maxFramesInFlight then .gated else .nothing
  | _ => .nothing

inductive Moves (l : Load) : Offer → Load → Prop
  | stay : Moves l .nothing l
  | reset (idle : l.sending = none) : Moves l .reset { l with sending := some .resetCounters }
  | gated (idle : l.sending = none) (gate : l.inFlight < maxFramesInFlight) : Moves l .gated
      { l with sending := some (.frame l.submitted), inFlight := l.inFlight + 1, submitted := l.submitted + 1 }
  | reencode (idle : l.sending = none) : Moves l .reencode
      { l with sending := some (.frame l.submitted), inFlight := l.inFlight + 1, submitted := l.submitted + 1 }
  | sent {m : ConsumerMessage} (hm : l.sending = some m) : Moves l .nothing
      { l with waiting := l.waiting ++ [m], sending := none }
  | takeReset {rest : List ConsumerMessage} (hw : l.waiting = .resetCounters :: rest) : Moves l .nothing
      { l with waiting := rest }
  | takeFrame {displayOrder : Nat} {rest : List ConsumerMessage} (hw : l.waiting = .frame displayOrder :: rest)
      (idle : l.processing = none) : Moves l .nothing { l with waiting := rest, processing := some displayOrder }
  | finish {displayOrder : Nat} (hp : l.processing = some displayOrder) : Moves l .nothing
      { l with processing := none, inFlight := l.inFlight - 1 }

theorem Moves.idle {l l' : Load} {o : Offer} (hm : Moves l o l') (ho : o ≠ .nothing) : l.sending = none := by
  cases hm with
  | reset idle | gated idle | reencode idle => exact idle
  | stay | sent | takeReset | takeFrame | finish => exact absurd rfl ho

/-! ## Steps move the load -/

section Steps

variable {cfg : Config} {s s' : State x}

theorem load_foldl_invalidate (requests : List (Option (UInt32 × UInt32))) (s : State x) :
    load (requests.foldl invalidate s) = load s ∧
      (requests.foldl invalidate s).consumer = s.consumer := by
  induction requests generalizing s with
  | nil => exact ⟨rfl, rfl⟩
  | cons request requests ih =>
    have hone : load (invalidate s request) = load s ∧ (invalidate s request).consumer = s.consumer := by
      cases request with
      | none => exact ⟨rfl, rfl⟩
      | some range => exact ⟨rfl, rfl⟩
    obtain ⟨hload, hconsumer⟩ := ih (invalidate s request)
    exact ⟨hload.trans hone.1, hconsumer.trans hone.2⟩

theorem of_atPhase {phase : Phase} {next : State x} (h : atPhase phase s next = some s') :
    s' = next ∧ (load s).sending = none := by
  unfold atPhase at h
  split at h
  · next hphase =>
    refine ⟨(Option.some.inj h).symm, ?_⟩
    show s.loop.outbox.map Prod.fst = none
    rw [hphase.2]
    rfl
  · cases h

theorem moves_receive (idle : (load s).sending = none) (received : Received) :
    Moves (load s) (offer s (.receive received)) (load (receive s received)) ∧
      (receive s received).consumer = s.consumer := by
  cases received with
  | timeout encoded =>
    unfold receive offer
    dsimp only
    cases hpending : (s.loop.pendingIdr && s.loop.hasEncoded && encoded) with
    | true => exact ⟨.reencode idle, rfl⟩
    | false => exact ⟨.stay, rfl⟩
  | disconnected => exact ⟨.stay, rfl⟩
  | frame captured =>
    unfold receive
    dsimp only
    by_cases hgate : s.inFlight ≥ maxFramesInFlight
    · rw [if_pos hgate]
      refine ⟨?_, rfl⟩
      cases captured with
      | encoded =>
        have hoffer : offer s (.receive (.frame .encoded)) = .nothing := if_neg (by omega)
        rw [hoffer]
        exact .stay
      | skipped => exact .stay
      | fatal => exact .stay
      | encodeFailed => exact .stay
    · rw [if_neg hgate]
      cases captured with
      | encoded =>
        have hoffer : offer s (.receive (.frame .encoded)) = .gated := if_pos (by omega)
        rw [hoffer]
        exact ⟨.gated idle (by show s.inFlight < _; omega), rfl⟩
      | skipped => exact ⟨.stay, rfl⟩
      | fatal => exact ⟨.stay, rfl⟩
      | encodeFailed => exact ⟨.stay, rfl⟩

theorem consumer_send (hs : send s = some s') : s'.consumer = s.consumer := by
  unfold send at hs
  split at hs
  · cases hs
  · dsimp only at hs
    split at hs
    · cases hs
      split <;> rfl
    · split at hs
      · cases hs
        rfl
      · cases hs

theorem moves_send (hs : send s = some s') (hr : s.consumer.running = true) :
    Moves (load s) .nothing (load s') := by
  unfold send at hs
  cases hout : s.loop.outbox with
  | none =>
    rw [hout] at hs
    cases hs
  | some out =>
    obtain ⟨m, stopOnError⟩ := out
    rw [hout] at hs
    dsimp only at hs
    rw [if_neg (by simp [hr])] at hs
    split at hs
    · cases hs
      have hsending : (load s).sending = some m := by
        show s.loop.outbox.map Prod.fst = some m
        rw [hout]
        rfl
      exact .sent hsending
    · cases hs

theorem moves_take (hs : take s = some s') :
    Moves (load s) .nothing (load s') ∧ s'.consumer.running = s.consumer.running := by
  unfold take at hs
  split at hs
  · next rest hr hp hq =>
    cases hs
    exact ⟨.takeReset hq, rfl⟩
  · next displayOrder rest hr hp hq =>
    cases hs
    exact ⟨.takeFrame hq hp, rfl⟩
  · cases hs

theorem sendPacket_processing (cfg : Config) (keys : SessionKeyData) (displayOrder : Nat) (data : List Byte)
    (isKeyFrame : Bool) (latency : UInt16) (networkOpen : Bool) (c : Consumer x) :
    (c.sendPacket cfg keys displayOrder data isKeyFrame latency networkOpen).processing = c.processing := by
  unfold Consumer.sendPacket
  dsimp only
  split <;> rfl

theorem moves_finish {readBack : ReadBack} {keys : SessionKeyData} {latency : UInt16} {networkOpen : Bool}
    (hs : finish cfg readBack keys latency networkOpen s = some s') :
    Moves (load s) .nothing (load s') ∧ s.consumer.running = true := by
  unfold finish at hs
  split at hs
  · next displayOrder hr hp =>
    refine ⟨?_, hr⟩
    dsimp only at hs
    split at hs
    · cases hs
      have hload : ∀ (p : Option Nat), p = none → Moves (load s) .nothing
          ⟨s.queue, s.loop.outbox.map Prod.fst, p, s.inFlight - 1, s.encoder.displayOrder⟩ := by
        rintro p rfl
        exact .finish hp
      exact hload _ (sendPacket_processing ..)
    · cases hs
      exact .finish hp
  · cases hs

/-- A step that the consumer survives is a move of the load. -/
theorem moves_of_step {a : Action} (hs : step cfg s a = some s') (hr : s'.consumer.running = true) :
    s.consumer.running = true ∧ Moves (load s) (offer s a) (load s') := by
  cases a with
  | shutdown =>
    obtain ⟨rfl, -⟩ := of_atPhase hs
    exact ⟨hr, .stay⟩
  | drainResets pending =>
    obtain ⟨rfl, idle⟩ := of_atPhase hs
    cases pending with
    | true => exact ⟨hr, .reset idle⟩
    | false => exact ⟨hr, .stay⟩
  | drainIdrRequests pending =>
    obtain ⟨rfl, -⟩ := of_atPhase hs
    cases pending with
    | true => exact ⟨hr, .stay⟩
    | false => exact ⟨hr, .stay⟩
  | drainInvalidations requests =>
    obtain ⟨rfl, -⟩ := of_atPhase hs
    obtain ⟨hload, hconsumer⟩ := load_foldl_invalidate requests s
    refine ⟨?_, ?_⟩
    · rw [← hconsumer]
      exact hr
    · show Moves (load s) .nothing (load (requests.foldl invalidate s))
      rw [hload]
      exact .stay
  | receive received =>
    obtain ⟨rfl, idle⟩ := of_atPhase hs
    obtain ⟨hmoves, hconsumer⟩ := moves_receive idle received
    exact ⟨hconsumer ▸ hr, hmoves⟩
  | send =>
    rw [consumer_send hs] at hr
    exact ⟨hr, moves_send hs hr⟩
  | take =>
    obtain ⟨hmoves, hrunning⟩ := moves_take hs
    exact ⟨hrunning ▸ hr, hmoves⟩
  | finish readBack keys latency networkOpen => exact (moves_finish hs).symm

/-- The consumer stays as it is where the loop decides to send. -/
theorem consumer_of_offer {a : Action} (hs : step cfg s a = some s') (ho : offer s a ≠ .nothing) :
    s'.consumer = s.consumer := by
  cases a with
  | drainResets pending =>
    obtain ⟨rfl, -⟩ := of_atPhase hs
    cases pending <;> rfl
  | receive received =>
    obtain ⟨rfl, idle⟩ := of_atPhase hs
    exact (moves_receive idle received).2
  | shutdown => exact absurd rfl ho
  | drainIdrRequests pending => exact absurd rfl ho
  | drainInvalidations requests => exact absurd rfl ho
  | send => exact absurd rfl ho
  | take => exact absurd rfl ho
  | finish readBack keys latency networkOpen => exact absurd rfl ho

end Steps

/-! ## What every move keeps -/

/-- The re-encodes so far, by display order, after the loop has decided. -/
def note (l : Load) (reencoded : List Nat) : Offer → List Nat
  | .reencode => reencoded ++ [l.submitted]
  | .nothing => reencoded
  | .reset => reencoded
  | .gated => reencoded

/-- The counter is the number of frames on their way. At most as many of them as the gate
lets through are not re-encodes. -/
structure Counted (l : Load) (reencoded : List Nat) : Prop where
  count : l.inFlight = l.frames.length
  gated : (l.frames.filter (· ∉ reencoded)).length ≤ maxFramesInFlight
  frames_lt : ∀ d ∈ l.frames, d < l.submitted
  reencoded_lt : ∀ d ∈ reencoded, d < l.submitted

/-- There is room for what is being sent. -/
def Room (l : Load) : Prop := l.sending ≠ none → l.waiting.length < channelCapacity

section Moves

variable {l l' : Load} {reencoded : List Nat} {o : Offer}

theorem frames_of_idle (idle : l.sending = none) :
    l.frames = l.processing.toList ++ l.waiting.filterMap frame? := by
  rw [Load.frames, idle]
  exact List.append_nil _

/-- A frame that is submitted is the last of those on their way. -/
theorem frames_submit (idle : l.sending = none) (n k : Nat) :
    Load.frames { l with sending := some (.frame l.submitted), inFlight := n, submitted := k } =
      l.frames ++ [l.submitted] := by
  rw [frames_of_idle idle]
  rfl

/-- The frames of the channel and the resets in it are its messages. -/
theorem length_waiting (l : Load) : l.waiting.length = l.resets + (l.waiting.filterMap frame?).length := by
  unfold Load.resets
  generalize l.waiting = ms
  induction ms with
  | nil => rfl
  | cons m ms ih =>
    cases m with
    | resetCounters =>
      have hframes : (ConsumerMessage.resetCounters :: ms).filterMap frame? = ms.filterMap frame? := rfl
      rw [hframes, List.count_cons_self, List.length_cons]
      omega
    | frame displayOrder =>
      have hframes : (ConsumerMessage.frame displayOrder :: ms).filterMap frame? =
        displayOrder :: ms.filterMap frame? := rfl
      rw [hframes, List.count_cons_of_ne (by simp), List.length_cons, List.length_cons]
      omega

theorem Counted.submit (hc : Counted l reencoded) (idle : l.sending = none) {reencoded' : List Nat}
    (hgated : ((l.frames ++ [l.submitted]).filter (· ∉ reencoded')).length ≤ maxFramesInFlight)
    (hlt : ∀ d ∈ reencoded', d < l.submitted + 1) : Counted
      { l with sending := some (.frame l.submitted), inFlight := l.inFlight + 1, submitted := l.submitted + 1 }
      reencoded' := by
  refine ⟨?_, ?_, ?_, hlt⟩
  · rw [frames_submit idle, List.length_append]
    exact congrArg (· + 1) hc.count
  · rw [frames_submit idle]
    exact hgated
  · rw [frames_submit idle]
    intro d hd
    show d < l.submitted + 1
    rcases List.mem_append.mp hd with hd | hd
    · have := hc.frames_lt d hd
      omega
    · rw [List.mem_singleton.mp hd]
      omega

/-- The same frames on their way. -/
theorem Counted.of_frames (hc : Counted l reencoded) (hframes : l'.frames = l.frames)
    (hcount : l'.inFlight = l.inFlight) (hsubmitted : l'.submitted = l.submitted) : Counted l' reencoded := by
  refine ⟨?_, ?_, ?_, ?_⟩
  · rw [hframes, hcount]
    exact hc.count
  · rw [hframes]
    exact hc.gated
  · rw [hframes, hsubmitted]
    exact hc.frames_lt
  · rw [hsubmitted]
    exact hc.reencoded_lt

theorem Counted.moves (hc : Counted l reencoded) (hm : Moves l o l') : Counted l' (note l reencoded o) := by
  cases hm with
  | stay => exact hc
  | reset idle =>
    refine hc.of_frames ?_ rfl rfl
    rw [frames_of_idle idle]
    exact List.append_nil _
  | gated idle gate =>
    -- with this one, at most as many as the gate lets through
    refine hc.submit idle ?_ fun d hd => Nat.lt_succ_of_lt (hc.reencoded_lt d hd)
    have hle := List.length_filter_le (· ∉ reencoded) (l.frames ++ [l.submitted])
    have hcount := hc.count
    rw [List.length_append, List.length_singleton] at hle
    show (List.filter (· ∉ reencoded) _).length ≤ maxFramesInFlight
    omega
  | reencode idle =>
    refine hc.submit idle ?_ fun d hd => ?_
    · have hold : l.frames.filter (· ∉ reencoded ++ [l.submitted]) = l.frames.filter (· ∉ reencoded) := by
        refine List.filter_congr fun d hd => ?_
        have hne : d ≠ l.submitted := (hc.frames_lt d hd).ne
        simp [hne]
      rw [note, List.filter_append, hold]
      simpa using hc.gated
    · rcases List.mem_append.mp hd with hd | hd
      · exact Nat.lt_succ_of_lt (hc.reencoded_lt d hd)
      · rw [List.mem_singleton.mp hd]
        omega
  | sent hsending =>
    refine hc.of_frames ?_ rfl rfl
    rename_i m
    rw [Load.frames, Load.frames, hsending, List.filterMap_append]
    cases m <;> simp [frame?]
  | takeReset hw =>
    refine hc.of_frames ?_ rfl rfl
    rw [Load.frames, Load.frames, hw]
    rfl
  | takeFrame hw idle =>
    refine hc.of_frames ?_ rfl rfl
    rw [Load.frames, Load.frames, hw, idle]
    rfl
  | @finish displayOrder hp =>
    have hframes : l.frames = displayOrder ::
        Load.frames { l with processing := none, inFlight := l.inFlight - 1 } := by
      rw [Load.frames, hp]
      rfl
    have hcount := hc.count
    have hgated := hc.gated
    rw [hframes] at hcount hgated
    refine ⟨?_, ?_, fun d hd => hc.frames_lt d (hframes ▸ List.mem_cons_of_mem _ hd), hc.reencoded_lt⟩
    · rw [List.length_cons] at hcount
      show l.inFlight - 1 = _
      omega
    · rw [List.filter_cons] at hgated
      split at hgated
      · rw [List.length_cons] at hgated
        show (List.filter (fun d => decide (d ∉ reencoded)) _).length ≤ _
        omega
      · exact hgated

/-- Without a decision to send, the messages only get fewer. -/
theorem Room.moves (hroom : Room l) (hm : Moves l .nothing l') : Room l' := by
  cases hm with
  | stay => exact hroom
  | sent hsending => exact fun h => absurd rfl h
  | takeReset hw =>
    intro h
    have hlt := hroom h
    rw [hw, List.length_cons] at hlt
    exact Nat.lt_of_succ_lt hlt
  | takeFrame hw idle =>
    intro h
    have hlt := hroom h
    rw [hw, List.length_cons] at hlt
    exact Nat.lt_of_succ_lt hlt
  | finish hp => exact hroom

/-- With one, there is room exactly if the frames in flight and the resets leave some. -/
theorem Counted.room_iff (hc : Counted l reencoded) (hm : Moves l o l') (ho : o ≠ .nothing) :
    Room l' ↔ l.inFlight + l.resets < channelCapacity + l.processing.toList.length := by
  have idle := hm.idle ho
  have hsent : l'.sending ≠ none ∧ l'.waiting = l.waiting := by
    cases hm with
    | reset | gated | reencode => exact ⟨by simp, rfl⟩
    | stay | sent | takeReset | takeFrame | finish => exact absurd rfl ho
  obtain ⟨hsending, hwaiting⟩ := hsent
  have hcount := hc.count
  have hwait := length_waiting l
  rw [frames_of_idle idle, List.length_append] at hcount
  rw [Room, imp_iff_right hsending, hwaiting]
  omega

end Moves

/-! ## Runs -/

/-- The two of them, and which frames are re-encodes. -/
structure Tracked (x : Crates) where
  state : State x
  reencoded : List Nat

namespace Tracked

def start (x : Crates) (cfg : Config) : Tracked x := ⟨.start x cfg, []⟩

def step (cfg : Config) (t : Tracked x) (a : Action) : Option (Tracked x) :=
  (Pipeline.step cfg t.state a).map fun s => ⟨s, note (load t.state) t.reencoded (offer t.state a)⟩

end Tracked

/-- The counter, its bound, and no underflow where it is taken down. -/
structure Counts (t : Tracked x) : Prop where
  count : t.state.inFlight = (t.state.queue.filterMap frame?).length +
    ((t.state.loop.outbox.bind fun m => frame? m.1).toList ++ t.state.consumer.processing.toList).length
  le : t.state.inFlight ≤ maxFramesInFlight + ((load t.state).frames.filter (· ∈ t.reencoded)).length
  pos : t.state.consumer.processing.isSome = true → 0 < t.state.inFlight

/-- And room for what is being sent. -/
structure Bounded (t : Tracked x) : Prop extends Counts t where
  room : t.state.loop.outbox ≠ none → t.state.queue.length < channelCapacity

/-- As long as the consumer is there. -/
def CountedAfter (_ : Tracked x) (_ : Action) (t' : Tracked x) : Prop :=
  t'.state.consumer.running = true → Counts t'

def BoundedAfter (_ : Tracked x) (_ : Action) (t' : Tracked x) : Prop :=
  t'.state.consumer.running = true → Bounded t'

/-- Where the loop decides to send, the frames in flight and the resets in the channel are
fewer than its capacity, the frame that is processed not counted. -/
def SendsBelow (t : Tracked x) (a : Action) (_ : Tracked x) : Prop :=
  t.state.consumer.running = true → offer t.state a ≠ .nothing →
    t.state.inFlight + t.state.queue.count .resetCounters <
      channelCapacity + t.state.consumer.processing.toList.length

section Runs

variable {cfg : Config} {t t' : Tracked x} {a : Action}

/-- The invariant of every run. -/
def CountInv (t : Tracked x) : Prop := t.state.consumer.running = true → Counted (load t.state) t.reencoded

/-- The invariant of the runs that have room. -/
def Inv (t : Tracked x) : Prop :=
  t.state.consumer.running = true → Counted (load t.state) t.reencoded ∧ Room (load t.state)

theorem sending_load (s : State x) : (load s).sending = none ↔ s.loop.outbox = none := Option.map_eq_none_iff

theorem counts_of_counted (hc : Counted (load t.state) t.reencoded) : Counts t := by
  have hcount : t.state.inFlight = t.state.consumer.processing.toList.length +
      (t.state.queue.filterMap frame?).length + (t.state.loop.outbox.bind fun m => frame? m.1).toList.length := by
    have hsending : (load t.state).sending.bind frame? = t.state.loop.outbox.bind fun m => frame? m.1 := by
      show (t.state.loop.outbox.map Prod.fst).bind frame? = _
      cases t.state.loop.outbox <;> rfl
    have hlength := hc.count
    rw [Load.frames, List.length_append, List.length_append, hsending] at hlength
    exact hlength
  refine ⟨?_, ?_, fun hp => ?_⟩
  · rw [List.length_append]
    omega
  · have hsplit := List.length_eq_length_filter_add (l := (load t.state).frames) (· ∈ t.reencoded)
    have hgated := hc.gated
    have htotal := hc.count
    simp only [decide_not] at hgated
    show (load t.state).inFlight ≤ _
    omega
  · obtain ⟨d, hd⟩ := Option.isSome_iff_exists.mp hp
    rw [hd, Option.toList_some, List.length_singleton] at hcount
    omega

theorem bounded_iff_room (hc : Counted (load t.state) t.reencoded) : Bounded t ↔ Room (load t.state) := by
  have hroom : Room (load t.state) ↔
      (t.state.loop.outbox ≠ none → t.state.queue.length < channelCapacity) := by
    rw [Room, Ne, sending_load]
    exact Iff.rfl
  exact ⟨fun h => hroom.mpr h.room, fun h => ⟨counts_of_counted hc, hroom.mp h⟩⟩

/-- A step of a run, as a move of the load. -/
theorem moves_of_tracked (hs : Tracked.step cfg t a = some t') (hr : t'.state.consumer.running = true) :
    t.state.consumer.running = true ∧ Moves (load t.state) (offer t.state a) (load t'.state) ∧
      t'.reencoded = note (load t.state) t.reencoded (offer t.state a) := by
  obtain ⟨s, hstep, rfl⟩ := Option.map_eq_some_iff.mp hs
  obtain ⟨hr', hm⟩ := moves_of_step hstep hr
  exact ⟨hr', hm, rfl⟩

theorem Inv.room_iff (hinv : Inv t) (hs : Tracked.step cfg t a = some t') :
    BoundedAfter t a t' ↔ SendsBelow t a t' := by
  by_cases hr' : t'.state.consumer.running = true
  · obtain ⟨hr, hm, hnote⟩ := moves_of_tracked hs hr'
    obtain ⟨hc, hroom⟩ := hinv hr
    have hc' : Counted (load t'.state) t'.reencoded := hnote ▸ hc.moves hm
    refine (imp_iff_right hr').trans ((bounded_iff_room hc').trans ?_)
    by_cases ho : offer t.state a = .nothing
    · exact iff_of_true (hroom.moves (ho ▸ hm)) fun _ h => absurd ho h
    · exact (hc.room_iff hm ho).trans ((imp_iff_right hr).trans (imp_iff_right ho)).symm
  · -- the consumer does not go where the loop decides to send
    refine iff_of_true (fun h => absurd h hr') fun hr ho => ?_
    obtain ⟨s, hstep, rfl⟩ := Option.map_eq_some_iff.mp hs
    exact absurd (consumer_of_offer hstep ho ▸ hr) hr'

theorem CountInv.step (hinv : CountInv t) (hs : Tracked.step cfg t a = some t') : CountInv t' := by
  intro hr'
  obtain ⟨hr, hm, hnote⟩ := moves_of_tracked hs hr'
  exact hnote ▸ (hinv hr).moves hm

theorem countInv_start (x : Crates) (cfg : Config) : CountInv (Tracked.start x cfg) :=
  fun _ => ⟨rfl, Nat.zero_le _, fun _ hd => absurd hd List.not_mem_nil, fun _ hd => absurd hd List.not_mem_nil⟩

theorem inv_start (x : Crates) (cfg : Config) : Inv (Tracked.start x cfg) :=
  fun hr => ⟨countInv_start x cfg hr, fun h => absurd rfl h⟩

/-- Where the loop decides to send a captured frame, at most two resets wait in the channel. Where it decides
to send what is not gated, at most one message that is not gated waits there. -/
def FewUngated (t : Tracked x) (a : Action) (_ : Tracked x) : Prop :=
  t.state.consumer.running = true →
    (offer t.state a = .gated → t.state.queue.count .resetCounters ≤ 2) ∧
      (offer t.state a = .reset ∨ offer t.state a = .reencode → t.state.queue.count .resetCounters +
        ((t.state.queue.filterMap frame?).filter (· ∈ t.reencoded)).length ≤ 1)

theorem lt_of_offer_gated (h : offer t.state a = .gated) : t.state.inFlight < maxFramesInFlight := by
  unfold offer at h
  split at h
  · split at h <;> cases h
  · split at h <;> cases h
  · split at h
    · assumption
    · cases h
  · cases h

/-- The frames that wait are gated, of which there are three at most, or re-encodes. -/
theorem Counted.waiting_le {l : Load} {reencoded : List Nat} (hc : Counted l reencoded) :
    (l.waiting.filterMap frame?).length ≤
      maxFramesInFlight + ((l.waiting.filterMap frame?).filter (· ∈ reencoded)).length := by
  have hsplit := List.length_eq_length_filter_add (l := l.waiting.filterMap frame?) (· ∈ reencoded)
  have hsub : ((l.waiting.filterMap frame?).filter (· ∉ reencoded)).Sublist (l.frames.filter (· ∉ reencoded)) := by
    refine List.Sublist.filter _ ?_
    rw [Load.frames]
    exact (List.sublist_append_right _ _).trans (List.sublist_append_left _ _)
  have hle := hsub.length_le.trans hc.gated
  simp only [decide_not] at hle
  omega

theorem Inv.sendsBelow (hinv : Inv t) (hs : Tracked.step cfg t a = some t') (hr' : t'.state.consumer.running = true)
    (hfew : FewUngated t a t') : SendsBelow t a t' := by
  intro hr ho
  obtain ⟨hc, -⟩ := hinv hr
  obtain ⟨hresets, hungated⟩ := hfew hr
  have hroom : (5 : Nat) = channelCapacity := rfl
  have hgate : 3 = maxFramesInFlight := rfl
  cases hoffer : offer t.state a with
  | nothing => exact absurd hoffer ho
  | gated =>
    have hlt := lt_of_offer_gated hoffer
    have htwo := hresets hoffer
    omega
  | reset | reencode =>
    have hone := hungated (by simp [hoffer])
    have hwaiting := hc.waiting_le
    have hcount := hc.count
    obtain ⟨-, hm, -⟩ := moves_of_tracked hs hr'
    have hidle : (load t.state).sending = none := hm.idle ho
    rw [frames_of_idle hidle, List.length_append] at hcount
    have hload : (load t.state).inFlight = t.state.inFlight ∧ (load t.state).waiting = t.state.queue ∧
        (load t.state).processing = t.state.consumer.processing := ⟨rfl, rfl, rfl⟩
    simp only [hload.1, hload.2.1, hload.2.2] at hcount hwaiting
    omega

theorem Inv.countInv (hinv : Inv t) : CountInv t := fun hr => (hinv hr).1

theorem Inv.step (hinv : Inv t) (hs : Tracked.step cfg t a = some t') (hfew : FewUngated t a t') : Inv t' := by
  intro hr'
  have hc' := hinv.countInv.step hs hr'
  exact ⟨hc', (bounded_iff_room hc').mp ((hinv.room_iff hs).mpr (hinv.sendsBelow hs hr' hfew) hr')⟩

/-- In every run of the two, as long as the consumer is there, the counter is the number of
frames on their way and bounded, and it does not underflow. There is room for every message
that is sent, if few messages that are not gated wait where the loop decides to send one. -/
theorem bounded_of_few_ungated (cfg : Config) (as : List Action) :
    EveryStep (Tracked.step cfg) CountedAfter (Tracked.start x cfg) as ∧
      (EveryStep (Tracked.step cfg) FewUngated (Tracked.start x cfg) as →
        EveryStep (Tracked.step cfg) BoundedAfter (Tracked.start x cfg) as) := by
  constructor
  · refine EveryStep.of_keeps ?_ ?_ (countInv_start x cfg) (everyStep_of_forall (fun _ _ => trivial) _)
    · exact fun t a t' hinv hs _ => hinv.step hs
    · exact fun t a t' hinv hs _ hr' => counts_of_counted (hinv.step hs hr')
  · refine EveryStep.of_keeps ?_ ?_ (inv_start x cfg)
    · exact fun t a t' hinv hs hfew => hinv.step hs hfew
    · exact fun t a t' hinv hs hfew hr' => (hinv.room_iff hs).mpr (hinv.sendsBelow hs hr' hfew) hr'

end Runs

/-! ## A run that fills the channel -/

/-- A frame that the consumer takes, and whose packet the network is slow to take. -/
def firstFrame : List Action :=
  [.drainResets false, .drainIdrRequests false, .drainInvalidations [], .receive (.frame .encoded), .send, .take]

/-- A turn without a new frame, in which the client asks for an IDR. -/
def idrTurn : List Action :=
  [.drainResets false, .drainIdrRequests true, .drainInvalidations [], .receive (.timeout true)]

def sixIdrs : List Action :=
  firstFrame ++ (List.replicate 5 (idrTurn ++ [.send])).flatten

instance (t : Tracked x) (a : Action) (t' : Tracked x) : Decidable (FewUngated t a t') :=
  inferInstanceAs (Decidable (_ → _ ∧ _))

/-- A reset, a frame and two re-encodes, of which one waits while the first is processed. -/
def twoIdrs : List Action :=
  [.drainResets true, .send, .drainIdrRequests false, .drainInvalidations [], .receive (.frame .encoded), .send,
    .take, .take] ++ idrTurn ++ [.send] ++ idrTurn

theorem twoIdrs_bounded : (exec (Tracked.step Pipeline.exampleConfig)
      (Tracked.start Packetizer.repetition Pipeline.exampleConfig) twoIdrs).isSome ∧
    EveryStep (Tracked.step Pipeline.exampleConfig) BoundedAfter
      (Tracked.start Packetizer.repetition Pipeline.exampleConfig) twoIdrs := by
  refine ⟨by decide, (bounded_of_few_ungated Pipeline.exampleConfig twoIdrs).2 ?_⟩
  decide

/-- The sixth re-encode finds the channel full. -/
theorem sixIdrs_full : ¬EveryStep (Tracked.step Pipeline.exampleConfig) BoundedAfter
    (Tracked.start Packetizer.repetition Pipeline.exampleConfig) (sixIdrs ++ idrTurn) := by
  intro h
  have hrest := h.of_append (m := _) rfl
  have hlast := ((((hrest _ rfl).2 _ rfl).2 _ rfl).2 _ rfl).1 rfl
  have hlt : 5 < channelCapacity := hlast.room (Option.some_ne_none (ConsumerMessage.frame 6, false))
  exact absurd hlt (by decide)

end Moonshine.Proof.InFlight
