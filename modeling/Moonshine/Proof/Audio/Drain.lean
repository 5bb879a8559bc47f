import Moonshine.Proof.Audio.Residual

/-!
# Drains

A drain is owed its reply from when the server accepts it until a tick finds the
stream drained. What an event acknowledges, drops and leaves owed is what was owed
before and what it accepts (`perform_balance`); a drain is dropped where another
one, or a deletion, meets a stream that is still draining. A stream that drains is
done within `n` ticks exactly if one of them finds the frames it needs and takes the
last one (`Leaves`), which its bytes, rates and position tell.
-/

namespace Moonshine.Proof.Drain

open Moonshine.Framework Moonshine.Impl Moonshine.Impl.Audio
open Moonshine.Proof.PlaybackBuffer Moonshine.Proof.PulseServer

variable {r : Resampler}

/-! ## What is owed, accepted, acknowledged and dropped -/

/-- The drain a stream is to acknowledge. -/
def drainSeq (s : PlaybackStream r) : Option UInt32 :=
  match s.state with
  | .draining seq => some seq
  | _ => none

@[simp] theorem drainSeq_eq_some {s : PlaybackStream r} {seq : UInt32} :
    drainSeq s = some seq ↔ s.state = .draining seq := by
  unfold drainSeq
  cases s.state <;> simp

def owed (c : Client r) : List UInt32 := c.playbackStreams.entries.flatMap fun e => (drainSeq e.2).toList

def ackSeq : Message → Option UInt32
  | .ack seq => some seq
  | _ => none

/-- The drains a tick acknowledges. A command is acknowledged at once. -/
def acknowledged (e : Event) (messages : List Message) : List UInt32 :=
  match e with
  | .tick => messages.filterMap ackSeq
  | .packet _ => []

/-- The drains that are not refused. -/
def accepted (e : Event) (messages : List Message) : List UInt32 :=
  match e with
  | .packet (.command seq (.drainPlaybackStream _)) => if messages = [] then [seq] else []
  | _ => []

/-- The drain of the stream of a channel. -/
def drainOf (c : Client r) (channel : UInt32) : Option UInt32 :=
  (c.playbackStreams.get? channel).bind drainSeq

/-- The drains that an event loses: a second drain, a deletion, or a new stream
on the channel. -/
def dropped (server : ServerState) (c : Client r) : Event → List UInt32
  | .packet (.command _ (.drainPlaybackStream channel)) => (drainOf c channel).toList
  | .packet (.command _ (.deletePlaybackStream channel)) => (drainOf c channel).toList
  | .packet (.command _ (.createPlaybackStream params)) =>
    if (params.streamSpec server).format.isSupported then
      (drainOf c server.nextPlaybackChannelIndex).toList else []
  | _ => []

/-! ## The streams around one channel -/

section Around

variable (c : Client r) (channel : UInt32)

theorem owed_erase :
    (owed c).Perm ((drainOf c channel).toList ++ owed ⟨c.playbackStreams.erase channel⟩) := by
  cases h : c.playbackStreams.get? channel with
  | none =>
    have herase : c.playbackStreams.erase channel = c.playbackStreams := by
      refine OrdMap.ext (List.filter_eq_self.mpr fun e he => ?_)
      have hne : e.1 ≠ channel := fun heq =>
        OrdMap.get?_eq_none.mp h (heq ▸ List.mem_map_of_mem he)
      simp [hne]
    simp [drainOf, h, herase]
  | some s =>
    obtain ⟨l₁, l₂, hl, herase, -⟩ := OrdMap.exists_split h
    simp only [owed, drainOf, h, hl, herase, Option.bind_some, List.flatMap_append, List.flatMap_cons]
    exact List.perm_append_comm_assoc _ _ _

theorem owed_modify (f : PlaybackStream r → PlaybackStream r) :
    (owed ⟨c.playbackStreams.modify channel f⟩).Perm
      (((c.playbackStreams.get? channel).bind (drainSeq ∘ f)).toList ++
        owed ⟨c.playbackStreams.erase channel⟩) := by
  cases h : c.playbackStreams.get? channel with
  | none =>
    have hperm := owed_erase c channel
    rw [drainOf, h] at hperm
    rw [OrdMap.modify_of_get?_none h]
    exact hperm
  | some s =>
    obtain ⟨l₁, l₂, -, herase, hmodify⟩ := OrdMap.exists_split h
    simp only [owed, herase, hmodify f, Option.bind_some, List.flatMap_append, List.flatMap_cons]
    exact List.perm_append_comm_assoc _ _ _

theorem owed_insert (s : PlaybackStream r) :
    (owed ⟨c.playbackStreams.insert channel s⟩).Perm
      ((drainSeq s).toList ++ owed ⟨c.playbackStreams.erase channel⟩) := by
  obtain ⟨l₁, l₂, hinsert, herase⟩ := OrdMap.insert_split c.playbackStreams channel s
  simp only [owed, hinsert, List.flatMap_append, List.flatMap_cons]
  refine (List.perm_append_comm_assoc _ _ _).trans (List.Perm.append_left _ ?_)
  rw [← List.flatMap_append]
  exact herase.flatMap_right _

/-- A command that leaves the draining to itself. -/
theorem owed_modify_of_eq {f : PlaybackStream r → PlaybackStream r}
    (hf : ∀ s, c.playbackStreams.get? channel = some s → drainSeq (f s) = drainSeq s) :
    (owed ⟨c.playbackStreams.modify channel f⟩).Perm (owed c) := by
  have hbind : (c.playbackStreams.get? channel).bind (drainSeq ∘ f) = drainOf c channel := by
    unfold drainOf
    cases h : c.playbackStreams.get? channel with
    | none => rfl
    | some s => exact hf s h
  exact (hbind ▸ owed_modify c channel f).trans (owed_erase c channel).symm

end Around

/-! ## Packets -/

section Stream

variable (s : PlaybackStream r)

@[simp] theorem drainSeq_popMissing (inPrebuf : Bool) :
    drainSeq (popMissing inPrebuf s).2 = drainSeq s := by
  rcases popMissing_cases inPrebuf s with h | h <;> simp [h, drainSeq]

@[simp] theorem drainSeq_cork : drainSeq (cork s) = drainSeq s := by
  cases hs : s.state <;> simp [drainSeq, cork, hs]

@[simp] theorem drainSeq_uncork (channel : UInt32) : drainSeq (uncork channel s).1 = drainSeq s := by
  cases hs : s.state with
  | corked =>
    have hnone : drainSeq s = none := by simp [drainSeq, hs]
    simp only [uncork, hs, hnone]
    split <;> rfl
  | prebuffering n => simp [uncork, hs]
  | playing => simp [uncork, hs]
  | draining seq => simp [uncork, hs]

@[simp] theorem drainSeq_flush : drainSeq (flush s) = drainSeq s := rfl

@[simp] theorem drainSeq_trigger : drainSeq (trigger s) = drainSeq s := by
  cases hs : s.state <;> simp [drainSeq, trigger, hs]

@[simp] theorem drainSeq_prebuf : drainSeq (prebuf s) = drainSeq s := by
  cases hs : s.state <;> simp [drainSeq, prebuf, hs]

theorem drainSeq_setBufferAttr {s' : PlaybackStream r} {attr : BufferAttr}
    (h : setBufferAttr attr s = .ok s') : drainSeq s' = drainSeq s := by
  obtain ⟨attr', -, h⟩ := Outcome.bind_eq_ok.mp h
  apply Outcome.ok.inj at h
  rw [← h]
  rfl

@[simp] theorem drainSeq_writeStream (channel : UInt32) (payload : List Byte) :
    drainSeq (writeStream channel payload s).1 = drainSeq s := by
  cases hs : s.state with
  | prebuffering n =>
    have hnone : drainSeq s = none := by simp [drainSeq, hs]
    simp only [writeStream, hs, hnone]
    split <;> rfl
  | corked => simp [writeStream, hs, drainSeq]
  | playing => simp [writeStream, hs, drainSeq]
  | draining seq => simp [writeStream, hs, drainSeq]

theorem drainSeq_newStream {params : CreateParams} {server : ServerState}
    (h : newStream params server = .ok s) : drainSeq s = none := by
  obtain ⟨attr, -, h⟩ := Outcome.bind_eq_ok.mp h
  obtain ⟨cvolume, -, h⟩ := Outcome.bind_eq_ok.mp h
  obtain ⟨buffer, -, h⟩ := Outcome.bind_eq_ok.mp h
  apply Outcome.ok.inj at h
  rw [← h]
  split <;> rfl

end Stream

/-- A command drops and leaves owed what was owed and what it accepts. -/
theorem handleCommand_balance {seq : UInt32} {cmd : Command} {server : ServerState} {c : Client r}
    {res : ServerState × Client r × List Message} (h : handleCommand seq cmd server c = .ok res) :
    (dropped server c (.packet (.command seq cmd)) ++ owed res.2.1).Perm
      (accepted (.packet (.command seq cmd)) res.2.2 ++ owed c) := by
  cases cmd with
  | createPlaybackStream params =>
    simp only [handleCommand, createPlaybackStream] at h
    by_cases hformat : (params.streamSpec server).format.isSupported
    · rw [if_neg (by simp [hformat])] at h
      obtain ⟨s, hs, h⟩ := Outcome.bind_eq_ok.mp h
      apply Outcome.ok.inj at h
      have hinsert := owed_insert c server.nextPlaybackChannelIndex (popMissing s.isPrebuffering s).2
      rw [drainSeq_popMissing, drainSeq_newStream s hs] at hinsert
      simp only [← h, dropped, if_pos hformat, accepted]
      exact (hinsert.append_left _).trans (owed_erase c server.nextPlaybackChannelIndex).symm
    · rw [if_pos (by simp [hformat])] at h
      apply Outcome.ok.inj at h
      simp [← h, dropped, hformat, accepted]
  | drainPlaybackStream channel =>
    cases hs : c.playbackStreams.get? channel with
    | some s =>
      simp only [handleCommand, hs] at h
      apply Outcome.ok.inj at h
      have hmodify := owed_modify c channel fun s => { s with state := .draining seq }
      rw [hs] at hmodify
      simp only [← h, dropped, accepted, if_true]
      refine (hmodify.append_left _).trans ?_
      refine (List.perm_append_comm_assoc _ _ _).trans (List.Perm.append_left _ ?_)
      exact (owed_erase c channel).symm
    | none =>
      simp only [handleCommand, hs] at h
      apply Outcome.ok.inj at h
      simp [← h, dropped, drainOf, hs, accepted]
  | corkPlaybackStream channel cork =>
    cases cork with
    | true =>
      apply Outcome.ok.inj at h
      simp only [← h]
      exact owed_modify_of_eq c channel fun s _ => drainSeq_cork s
    | false =>
      cases hs : c.playbackStreams.get? channel with
      | some s =>
        simp only [handleCommand, hs] at h
        apply Outcome.ok.inj at h
        simp only [← h]
        refine owed_modify_of_eq c channel fun t ht => ?_
        rw [drainSeq_uncork, Option.some.inj (hs.symm.trans ht)]
      | none =>
        simp only [handleCommand, hs] at h
        apply Outcome.ok.inj at h
        simp [← h, dropped, accepted]
  | flushPlaybackStream channel =>
    apply Outcome.ok.inj at h
    simp only [← h]
    exact owed_modify_of_eq c channel fun s _ => drainSeq_flush s
  | deletePlaybackStream channel =>
    apply Outcome.ok.inj at h
    simp only [← h]
    exact (owed_erase c channel).symm
  | triggerPlaybackStream channel =>
    apply Outcome.ok.inj at h
    simp only [← h]
    exact owed_modify_of_eq c channel fun s _ => drainSeq_trigger s
  | prebufPlaybackStream channel =>
    apply Outcome.ok.inj at h
    simp only [← h]
    exact owed_modify_of_eq c channel fun s _ => drainSeq_prebuf s
  | setPlaybackStreamBufferAttr index attr =>
    cases hs : c.playbackStreams.get? index with
    | some s =>
      simp only [handleCommand, hs] at h
      obtain ⟨s', hset, h⟩ := Outcome.bind_eq_ok.mp h
      apply Outcome.ok.inj at h
      simp only [← h]
      refine owed_modify_of_eq c index fun t ht => ?_
      rw [drainSeq_setBufferAttr s hset, Option.some.inj (hs.symm.trans ht)]
    | none =>
      simp only [handleCommand, hs] at h
      apply Outcome.ok.inj at h
      simp [← h, dropped, accepted]

theorem handleStreamWrite_balance {channel : UInt32} {payload : List Byte} {c : Client r}
    {res : Client r × List Message} (h : handleStreamWrite channel payload c = .ok res) :
    (owed res.1).Perm (owed c) := by
  cases hs : c.playbackStreams.get? channel with
  | some s =>
    simp only [handleStreamWrite, hs] at h
    apply Outcome.ok.inj at h
    rw [← h]
    refine owed_modify_of_eq c channel fun t ht => ?_
    rw [drainSeq_writeStream, Option.some.inj (hs.symm.trans ht)]
  | none => simp [handleStreamWrite, hs] at h

/-! ## Ticks -/

/-- A tick acknowledges the drain of a stream, or leaves it. -/
theorem tickStream_drainSeq {numFrames : Nat} {channel : UInt32} {s : PlaybackStream r} {t : Ticked r}
    (ht : tickStream numFrames channel s = .ok t) :
    t.done.isSome ∧ t.done = drainSeq s ∨ t.done = none ∧ drainSeq t.stream = drainSeq s := by
  obtain ⟨res, hd, rfl⟩ := tickStream_eq_ok.mp ht
  have hrequest : ∀ s' : PlaybackStream r, drainSeq (requestPhase channel s').1 = drainSeq s' := by
    intro s'
    rcases requestPhase_cases channel s' with ⟨seq, -, h⟩ | ⟨-, h⟩ <;> simp [h]
  cases drainPhase_cases hd with
  | idle => exact .inr ⟨rfl, hrequest s⟩
  | underrun hs =>
    refine .inr ⟨rfl, (hrequest _).trans ?_⟩
    simp [drainSeq, PlaybackStream.rebuffer, hs]
  | starved => exact .inr ⟨rfl, hrequest s⟩
  | played hs => exact .inr ⟨rfl, (hrequest _).trans rfl⟩
  | @drained buffer seq hs =>
    by_cases hempty : buffer.isEmpty
    · left
      simp [hempty, drainSeq, hs]
    · right
      simp only [hempty, Bool.false_eq_true, if_false, true_and]
      exact (hrequest _).trans rfl

/-- The streams a tick leaves, as `clockTick` does. -/
def remaining (ticked : List (UInt32 × Ticked r)) : List (UInt32 × PlaybackStream r) :=
  ticked.filterMap fun e => (if e.2.done.isSome then none else some e.2.stream).map (e.1, ·)

theorem ticks_balance {numFrames : Nat} {streams : List (UInt32 × PlaybackStream r)}
    {ticked : List (UInt32 × Ticked r)} (h : mapValuesM (tickStream numFrames) streams = .ok ticked) :
    (ticked.filterMap (fun e => e.2.done) ++
      (remaining ticked).flatMap fun e => (drainSeq e.2).toList).Perm
        (streams.flatMap fun e => (drainSeq e.2).toList) := by
  induction streams generalizing ticked with
  | nil =>
    apply Outcome.ok.inj at h
    simp [← h, remaining]
  | cons e es ih =>
    obtain ⟨t, ht, ts, hts, rfl⟩ := mapValuesM_cons_eq_ok.mp h
    have hrest := ih hts
    rw [remaining] at hrest
    rw [remaining, List.flatMap_cons]
    rcases tickStream_drainSeq ht with ⟨hsome, hdone⟩ | ⟨hdone, hkeep⟩
    · obtain ⟨seq, hseq⟩ := Option.isSome_iff_exists.mp hsome
      simp only [List.filterMap_cons, ← hdone, hseq, Option.isSome_some, if_true, Option.map_none,
        Option.toList_some]
      exact hrest.cons seq
    · simp only [List.filterMap_cons, hdone, Option.isSome_none, Bool.false_eq_true, if_false,
        Option.map_some, List.flatMap_cons, hkeep]
      exact (List.perm_append_comm_assoc _ _ _).trans (hrest.append_left _)

theorem clockTick_balance {numFrames : Nat} {c c' : Client r} {messages : List Message}
    (h : clockTick numFrames c = .ok (c', messages)) :
    (acknowledged .tick messages ++ owed c').Perm (owed c) := by
  obtain ⟨ticked, hticked, rfl, rfl⟩ := clockTick_eq_ok.mp h
  have hmessages : (ticked.entries.flatMap fun e => e.2.messages).filterMap ackSeq = [] := by
    refine List.filterMap_eq_nil_iff.mpr fun m hm => ?_
    obtain ⟨e, he, hm⟩ := List.mem_flatMap.mp hm
    obtain ⟨s, -, ht⟩ := (OrdMap.get?_mapM hticked).mp (OrdMap.get?_eq_some.mpr he)
    rcases mem_tickStream ht hm with rfl | ⟨length, rfl⟩ <;> rfl
  have hacks : (ticked.entries.filterMap fun e => e.2.done.map .ack).filterMap ackSeq =
      ticked.entries.filterMap fun e => e.2.done := by
    rw [List.filterMap_filterMap]
    refine List.filterMap_congr fun e _ => ?_
    cases e.2.done <;> rfl
  rw [acknowledged, List.filterMap_append, hmessages, hacks, List.nil_append]
  exact ticks_balance (OrdMap.mapM_eq_ok.mp hticked)

/-- What an event acknowledges, drops and leaves owed is what was owed and what
it accepts. -/
theorem perform_balance {e : Event} {server : ServerState} {c : Client r}
    {res : ServerState × Client r × List Message} (h : perform e server c = .ok res) :
    (acknowledged e res.2.2 ++ (dropped server c e ++ owed res.2.1)).Perm
      (accepted e res.2.2 ++ owed c) := by
  cases e with
  | packet p =>
    cases p with
    | command seq cmd => exact handleCommand_balance h
    | write channel payload =>
      obtain ⟨res', hwrite, h⟩ := Outcome.bind_eq_ok.mp h
      apply Outcome.ok.inj at h
      simp only [← h]
      exact handleStreamWrite_balance hwrite
  | tick =>
    obtain ⟨res', htick, h⟩ := Outcome.bind_eq_ok.mp h
    apply Outcome.ok.inj at h
    simp only [← h]
    exact clockTick_balance htick

/-! ## Draining to the end -/

theorem tickStream_draining {numFrames : Nat} {channel seq : UInt32} {s : PlaybackStream r}
    {t : Ticked r} (ht : tickStream numFrames channel s = .ok t) (hs : s.state = .draining seq) :
    s.buffer.drain numFrames = .ok none ∧ t.done = none ∧ t.stream = s ∨
    ∃ buffer, s.buffer.drain numFrames = .ok (some buffer) ∧
      t.done = (if buffer.isEmpty then some seq else none) ∧ t.stream = PlaybackStream.take buffer s := by
  have hrequest : ∀ s' : PlaybackStream r, s'.state = .draining seq → requestPhase channel s' = (s', []) :=
    fun s' hs' => by simp [requestPhase, hs']
  obtain ⟨res, hd, rfl⟩ := tickStream_eq_ok.mp ht
  cases drainPhase_cases hd with
  | idle _ hdraining => exact absurd hs (hdraining seq)
  | underrun hplaying => exact absurd (hplaying.symm.trans hs) nofun
  | starved hdrain => exact .inl ⟨hdrain, rfl, by rw [hrequest s hs]⟩
  | played hplaying => exact absurd (hplaying.symm.trans hs) nofun
  | @drained buffer seq' hdraining hdrain =>
    cases hdraining.symm.trans hs
    exact .inr ⟨buffer, hdrain, rfl, by rw [hrequest (PlaybackStream.take buffer s) hs]⟩

/-- Every stream of the client that drains is done within `n` ticks. -/
def AllDrainable (numFrames n : Nat) (c : Client r) : Prop :=
  ∀ channel s seq, c.playbackStreams.get? channel = some s → s.state = .draining seq →
    Drainable numFrames n s.buffer

theorem owed_eq_nil {c : Client r} :
    owed c = [] ↔ ∀ channel s seq, c.playbackStreams.get? channel = some s → s.state ≠ .draining seq := by
  simp only [owed, List.flatMap_eq_nil_iff, Option.toList_eq_nil_iff, Prod.forall, OrdMap.get?_eq_some]
  refine forall₂_congr fun channel s => ?_
  rw [forall_comm]
  refine imp_congr_right fun _ => ?_
  simp [Option.eq_none_iff_forall_ne_some]

theorem clockTick_allDrainable {numFrames n : Nat} {c c' : Client r} {messages : List Message}
    (h : clockTick numFrames c = .ok (c', messages)) :
    AllDrainable numFrames n c' ↔ AllDrainable numFrames (n + 1) c := by
  obtain ⟨ticked, hticked, rfl, -⟩ := clockTick_eq_ok.mp h
  constructor
  · intro hall channel s seq hs hdraining
    obtain ⟨t, htok⟩ : ∃ t, ticked.get? channel = some t := by
      refine Option.ne_none_iff_exists'.mp fun hnone => ?_
      rw [(OrdMap.get?_mapM_eq_none hticked).mp hnone] at hs
      exact nomatch hs
    obtain ⟨s₀, hs₀, ht⟩ := (OrdMap.get?_mapM hticked).mp htok
    cases hs.symm.trans hs₀
    have hleft : t.done = none → t.stream.state = .draining seq → Drainable numFrames n t.stream.buffer :=
      fun hdone hstate => hall channel t.stream seq
        (by rw [OrdMap.get?_filterMap, htok]; simp [hdone]) hstate
    rcases tickStream_draining ht hdraining with ⟨hdrain, hdone, hstream⟩ | ⟨buffer, hdrain, hdone, hstream⟩
    · rw [hstream] at hleft
      exact absurd (hleft hdone hdraining) (not_drainable hdrain n)
    · refine ⟨buffer, hdrain, ?_⟩
      by_cases hempty : buffer.isEmpty
      · exact .inl hempty
      · rw [if_neg hempty] at hdone
        rw [hstream] at hleft
        exact .inr (hleft hdone hdraining)
  · intro hall channel s' seq hs' hdraining
    rw [OrdMap.get?_filterMap, Option.bind_eq_some_iff] at hs'
    obtain ⟨t, htok, hs'⟩ := hs'
    obtain ⟨s, hs, ht⟩ := (OrdMap.get?_mapM hticked).mp htok
    cases hdone : t.done with
    | some seq' => simp [hdone] at hs'
    | none =>
      simp only [hdone, Option.isSome_none, Bool.false_eq_true, if_false, Option.some.injEq] at hs'
      subst hs'
      have hstate : s.state = .draining seq := by
        rcases tickStream_drainSeq ht with ⟨hsome, -⟩ | ⟨-, hkeep⟩
        · simp [hdone] at hsome
        · rw [← drainSeq_eq_some, ← hkeep, drainSeq_eq_some, hdraining]
      have hdrainable := hall channel s seq hs hstate
      rcases tickStream_draining ht hstate with ⟨hdrain, -, -⟩ | ⟨buffer, hdrain, hdone', hstream⟩
      · exact absurd hdrainable (not_drainable hdrain (n + 1))
      · obtain ⟨p', hp', hp⟩ := hdrainable
        cases hdrain.symm.trans hp'
        rw [hdone] at hdone'
        rw [hstream]
        exact hp.resolve_left fun hempty => by simp [hempty] at hdone'

/-! ## Runs -/

section Run

variable {token : Nat}

def owedTo (token : Nat) (w : World r) : List UInt32 :=
  match w.clients.get? token with
  | some c => owed c
  | none => []

def allAcknowledged (events : List (Event × List Message)) : List UInt32 :=
  events.flatMap fun e => acknowledged e.1 e.2

def allAccepted (events : List (Event × List Message)) : List UInt32 :=
  events.flatMap fun e => accepted e.1 e.2

/-- The drains of the client that an action loses. -/
def droppedBy (token : Nat) (w : World r) (act : Action) : List UInt32 :=
  match eventFor token act, w.clients.get? token with
  | some e, some c => dropped w.server c e
  | _, _ => []

/-- The drains of the client that are lost along a run. -/
def droppedIn (token : Nat) : World r → List Action → List UInt32
  | _, [] => []
  | w, act :: acts =>
    droppedBy token w act ++ match step w act with
      | some w' => droppedIn token w' acts
      | none => []

theorem droppedIn_eq_nil {w w' : World r} {acts : List Action} (he : exec step w acts = some w') :
    droppedIn token w acts = [] ↔ EveryStep step (fun w act _ => droppedBy token w act = []) w acts := by
  induction acts generalizing w with
  | nil => simp [droppedIn, EveryStep]
  | cons act acts ih =>
    obtain ⟨m, hm, he⟩ := exec_cons.mp he
    rw [everyStep_cons hm, ← ih he]
    simp [droppedIn, hm]

/-- Over a step, what is acknowledged, dropped and owed is what was owed and is
accepted. -/
theorem step_balance {w w' : World r} {act : Action} (hs : step w act = some w')
    (hfresh : Fresh token w) (hknown : Known token w') (q : UInt32) :
    (allAcknowledged (history token w'.log)).count q + (droppedBy token w act).count q +
        (owedTo token w').count q + (allAccepted (history token w.log)).count q =
      (allAcknowledged (history token w.log)).count q + (owedTo token w).count q +
        (allAccepted (history token w'.log)).count q := by
  cases seen_of_step hs token with
  | idle hact hclient hlog =>
    have hdropped : droppedBy token w act = [] := by
      rcases hact with hact | hnone
      · simp [droppedBy, hact]
      · simp [droppedBy, hnone]
    simp [owedTo, hclient, hlog, hdropped]
  | joined hact htoken hclient hlog =>
    obtain ⟨hnone, -⟩ := hfresh (Nat.le_of_eq htoken.symm)
    simp [owedTo, hclient, hlog, hnone, droppedBy, owed, OrdMap.empty]
  | left hact hclient hlog =>
    have hnone : w.clients.get? token = none := by
      refine (hfresh (Nat.le_trans (nextClientToken_le hs) (hknown.resolve_left ?_))).1
      simp [hclient]
    simp [owedTo, hclient, hlog, hnone, droppedBy]
  | @served e c c' server messages hact hclient hperform hclient' hlog =>
    have hcount := List.perm_iff_count.mp (perform_balance hperform) q
    simp only [List.count_append] at hcount
    simp only [allAcknowledged, allAccepted, hlog, List.flatMap_append, List.flatMap_cons,
      List.flatMap_nil, List.append_nil, List.count_append, owedTo, droppedBy, hact, hclient, hclient']
    omega

theorem run_balance {w w' : World r} {acts : List Action} (he : exec step w acts = some w')
    (hfresh : Fresh token w) (hknown : Known token w') (q : UInt32) :
    (allAcknowledged (history token w'.log)).count q + (droppedIn token w acts).count q +
        (owedTo token w').count q + (allAccepted (history token w.log)).count q =
      (allAcknowledged (history token w.log)).count q + (owedTo token w).count q +
        (allAccepted (history token w'.log)).count q := by
  induction acts generalizing w with
  | nil =>
    apply Option.some.inj at he
    simp [he, droppedIn]
  | cons act acts ih =>
    obtain ⟨m, hm, he⟩ := exec_cons.mp he
    have hstep := step_balance hm hfresh (hknown.of_exec he) q
    have hrest := ih he (hfresh.step hm)
    simp only [droppedIn, hm, List.count_append]
    omega

theorem ticks_allDrainable {n : Nat} {w w' : World r} {c : Client r}
    (he : exec step w (List.replicate n .clockTick) = some w') (hc : w.clients.get? token = some c) :
    (w'.clients.get? token).isSome ∧
      (owedTo token w' = [] ↔ AllDrainable w.server.numFrames n c) := by
  induction n generalizing w c with
  | zero =>
    obtain rfl := Option.some.inj he
    simp [owedTo, hc, owed_eq_nil, AllDrainable, Drainable]
  | succ n ih =>
    obtain ⟨m, hm, he⟩ := exec_cons.mp he
    obtain ⟨hserver, c', messages, htick, hc'⟩ := clockTick_of_step hm hc
    rw [← clockTick_allDrainable htick, ← hserver]
    exact ih he hc'

theorem droppedIn_ticks (n : Nat) (w : World r) :
    droppedIn token w (List.replicate n .clockTick) = [] := by
  induction n generalizing w with
  | zero => rfl
  | succ n ih =>
    have hdropped : droppedBy token w .clockTick = [] := by
      cases hc : w.clients.get? token <;> simp [droppedBy, eventFor, hc, dropped]
    cases hs : step w .clockTick <;> simp [List.replicate_succ, droppedIn, hdropped, hs, ih]

/-- The converters of the streams are those of their rates. -/
theorem allTuned_step (x : Exact r) {w w' : World r} {act : Action}
    (h : AllStreams (fun s => Tuned x s.buffer) w) (hs : step w act = some w') :
    AllStreams (fun s => Tuned x s.buffer) w' :=
  h.step hs (fun _ _ hnew => (buffer_popMissing ..).symm ▸ tuned_newStream x hnew)
    fun _ _ _ _ _ _ _ htuned hchange => htuned.change hchange

/-- No stream of the client drains, and each drain it was not refused has been
acknowledged once. -/
def Acknowledged (token : Nat) (w : World r) : Prop :=
  owedTo token w = [] ∧
    (allAcknowledged (history token w.log)).Perm (allAccepted (history token w.log))

/-- However many ticks follow, a client's drains are acknowledged in them exactly if none
was dropped before and the streams that drain hold what one of the ticks takes last. -/
theorem drains_acknowledged_iff (x : Exact r) {captureSpec : SampleSpec} {clockRateHz : Nat} {acts : List Action}
    {w w' : World r} {c : Client r} {n : Nat}
    (he : exec step (World.start captureSpec clockRateHz) acts = some w)
    (hc : w.clients.get? token = some c)
    (hticks : exec step w (List.replicate n .clockTick) = some w')
    (hframes : 0 < w.server.numFrames) :
    Acknowledged token w' ↔
      EveryStep step (fun w act _ => droppedBy token w act = [])
        (World.start captureSpec clockRateHz : World r) acts ∧
      ∀ channel s seq, c.playbackStreams.get? channel = some s → s.state = .draining seq →
        Leaves x w.server.numFrames n s.buffer := by
  obtain ⟨hclient, howed⟩ := ticks_allDrainable hticks hc
  have htuned : AllStreams (fun s => Tuned x s.buffer) w :=
    exec_inv (fun _ _ _ h hs => allTuned_step x h hs) (allStreams_start captureSpec clockRateHz) he
  have hleaves : (∀ channel s seq, c.playbackStreams.get? channel = some s → s.state = .draining seq →
      Leaves x w.server.numFrames n s.buffer) ↔ AllDrainable w.server.numFrames n c :=
    forall_congr' fun channel => forall_congr' fun s => forall_congr' fun seq =>
      forall_congr' fun hs => imp_congr_right fun _ =>
        leaves_iff (htuned token channel s (Option.bind_eq_some_iff.mpr ⟨c, hc, hs⟩)) hframes
  have hcount : ∀ q, (allAcknowledged (history token w'.log)).count q +
      (droppedIn token (World.start captureSpec clockRateHz : World r) acts).count q +
      (owedTo token w').count q = (allAccepted (history token w'.log)).count q := by
    intro q
    have hfresh := fresh_start (r := r) token captureSpec clockRateHz
    have hfresh' := exec_inv (fun _ _ _ h hs => Fresh.step h hs) hfresh he
    have hrun := run_balance he hfresh (.inl (by simp [hc])) q
    have hend := run_balance hticks hfresh' (.inl hclient) q
    rw [droppedIn_ticks] at hend
    have howed : owedTo token (World.start captureSpec clockRateHz : World r) = [] := rfl
    have hlog : history token (World.start captureSpec clockRateHz : World r).log = [] := rfl
    rw [howed, hlog] at hrun
    simp only [allAcknowledged, allAccepted, List.flatMap_nil, List.count_nil] at hrun hend ⊢
    omega
  rw [Acknowledged, howed, hleaves, ← droppedIn_eq_nil he, and_comm]
  refine and_congr_left fun hall => ?_
  rw [List.perm_iff_count, List.eq_nil_iff_forall_not_mem]
  have hnil := howed.mpr hall
  constructor
  · intro hperm q hq
    have hpos := List.count_pos_iff.mpr hq
    have h := hcount q
    rw [hperm q] at h
    omega
  · intro hnone q
    have h := hcount q
    rw [hnil, List.count_nil, List.count_eq_zero.mpr (hnone q)] at h
    omega

end Run

/-! ## Two runs -/

/-- Ten frames, where a tick takes 240. -/
def shortRun : List Action :=
  [.connect, .recv 1024 (.command 0 (.createPlaybackStream (exampleParams 240))),
    .recv 1024 (.write 0 (List.replicate 10 0)), .recv 1024 (.command 1 (.triggerPlaybackStream 0)),
    .recv 1024 (.command 2 (.drainPlaybackStream 0))]

/-- Two ticks after the drain of ten frames it is still owed, although
nothing more was written. -/
theorem short_drain_owed :
    (exec step exampleStart (shortRun ++ [.clockTick, .clockTick])).map (fun w =>
      (owedTo 1024 w, w.log.map Entry.messages)) =
    some ([2], [[.createReply 0 0 0 ⟨240, 240, 240, 240⟩ 240], [], [.ack 1], [], [.underflow 0],
      [.underflow 0]]) := by
  decide +kernel

def exactStart : World Audio.Sampled.exactResampler := World.start ⟨.float32Le, 2, 48000⟩ 200

/-- A stream of half the rate, of which the first tick takes 119 frames and the second
120, and one of the rate of the output. -/
def wholeRun : List Action :=
  [.connect,
    .recv 1024 (.command 0 (.createPlaybackStream { exampleParams 240 with sampleSpec := ⟨.u8, 1, 24000⟩ })),
    .recv 1024 (.command 1 (.createPlaybackStream (exampleParams 240))),
    .recv 1024 (.write 0 (List.replicate 239 0)), .recv 1024 (.write 1 (List.replicate 240 0)),
    .recv 1024 (.command 2 (.drainPlaybackStream 0)), .recv 1024 (.command 3 (.drainPlaybackStream 1))]

/-- A stream that drains, after it. -/
def wholeStream (index seq minimum : UInt32) (buffer : PlaybackBuffer Audio.Sampled.exactResampler) :
    PlaybackStream Audio.Sampled.exactResampler where
  streamIndex := index
  state := .draining seq
  bufferAttr := ⟨240, 240, 240, minimum⟩
  buffer := buffer
  missing := 0
  requested := 240 - buffer.lenBytes
  playedBytes := 0
  writeOffset := buffer.lenBytes
  readOffset := 0

def halfRate : PlaybackStream Audio.Sampled.exactResampler :=
  wholeStream 0 2 120 (.resampling ⟨List.replicate 239 0, ⟨.u8, 1, 24000⟩, 2⟩
    (⟨24000, 48000, 0, by decide, by decide, by decide⟩ : Audio.Sampled.Position) 48000)

def fullRate : PlaybackStream Audio.Sampled.exactResampler :=
  wholeStream 1 3 240 (.passthrough ⟨List.replicate 240 0, ⟨.u8, 1, 48000⟩, 2⟩)

def wholeClient : Client Audio.Sampled.exactResampler :=
  ⟨⟨[(0, halfRate), (1, fullRate)], by simp⟩⟩

set_option maxRecDepth 4000 in
theorem wholeRun_client : (exec step exactStart wholeRun).map (fun w =>
    (w.server.numFrames, w.clients.get? 1024)) = some (240, some wholeClient) := rfl

theorem wholeRun_acknowledged : ∃ w w', exec step exactStart wholeRun = some w ∧
    exec step w (List.replicate 2 .clockTick) = some w' ∧ Acknowledged 1024 w' := by
  have hsome : (exec step exactStart (wholeRun ++ List.replicate 2 .clockTick)).isSome := by
    decide +kernel
  obtain ⟨w', hw'⟩ := Option.isSome_iff_exists.mp hsome
  obtain ⟨w, hw, hticks⟩ := exec_append.mp hw'
  have hclient := wholeRun_client
  rw [hw, Option.map_some, Option.some.injEq, Prod.mk.injEq] at hclient
  obtain ⟨hframes, hclient⟩ := hclient
  have hstream : ∀ channel s, wholeClient.playbackStreams.get? channel = some s → s = halfRate ∨ s = fullRate := by
    intro channel s hs
    have hmem : (channel, s) ∈ [(0, halfRate), (1, fullRate)] := OrdMap.get?_eq_some.mp hs
    simp only [List.mem_cons, Prod.mk.injEq, List.not_mem_nil, or_false] at hmem
    exact hmem.imp And.right And.right
  refine ⟨w, w', hw, hticks, (drains_acknowledged_iff exact hw hclient hticks ?_).mpr ⟨?_, ?_⟩⟩
  · rw [hframes]
    decide
  · exact (by decide +kernel : EveryStep step (fun w act _ => droppedBy 1024 w act = []) exactStart wholeRun)
  · intro channel s seq hs _
    rw [hframes]
    rcases hstream channel s hs with rfl | rfl
    · exact ⟨by decide, 1, by decide, by decide +kernel⟩
    · exact ⟨by decide, 0, by decide, by decide +kernel⟩

end Moonshine.Proof.Drain
