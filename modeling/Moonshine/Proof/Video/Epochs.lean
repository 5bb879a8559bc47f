import Moonshine.Framework.Run
import Moonshine.Impl.Video.Pipeline
import Moonshine.Proof.Video.Reassembly
import Moonshine.Proof.Video.Sealing

/-!
# Frame indices and display orders

The encode loop turns the frame index of an invalidation request into a display
order by counting from the first frame of the epoch. The consumer counts the
frames it reads back. What lies between them is the channel: a reset in it starts
the next epoch, and the frames in it have consecutive display orders (`Carries`).
-/

namespace Moonshine.Proof.Pipeline

open Moonshine.Framework Moonshine.Impl Moonshine.Impl.Pipeline
open Moonshine.Impl.Packetizer (Crates)
open Moonshine.Proof

variable {x : Crates} {base : Nat → Nat}

/-! ## The messages on their way -/

/-- After the messages, a consumer that was in `epoch` and had taken the frames
up to `next` is in `epoch'` and has taken those up to `next'`. -/
def Carries (base : Nat → Nat) : (epoch next : Nat) → List ConsumerMessage → (epoch' next' : Nat) → Prop
  | epoch, next, [], epoch', next' => epoch = epoch' ∧ next = next'
  | epoch, next, .frame displayOrder :: ms, epoch', next' =>
    displayOrder = next ∧ Carries base epoch (next + 1) ms epoch' next'
  | epoch, next, .resetCounters :: ms, epoch', next' =>
    base (epoch + 1) = next ∧ Carries base (epoch + 1) next ms epoch' next'

theorem Carries.epoch_le {e n e' n' : Nat} {ms : List ConsumerMessage}
    (h : Carries base e n ms e' n') : e ≤ e' := by
  induction ms generalizing e n with
  | nil => exact Nat.le_of_eq h.1
  | cons m ms ih =>
    cases m with
    | resetCounters => exact Nat.le_of_succ_le (ih h.2)
    | frame displayOrder => exact ih h.2

theorem Carries.frame {e n e' n' : Nat} {ms : List ConsumerMessage} (h : Carries base e n ms e' n') :
    Carries base e n (ms ++ [.frame n']) e' (n' + 1) := by
  induction ms generalizing e n with
  | nil =>
    obtain ⟨rfl, rfl⟩ := h
    exact ⟨rfl, rfl, rfl⟩
  | cons m ms ih =>
    cases m with
    | resetCounters => exact ⟨h.1, ih h.2⟩
    | frame displayOrder => exact ⟨h.1, ih h.2⟩

/-- A reset at the end, whose epoch starts at what is submitted next. -/
theorem Carries.reset {e n e' n' : Nat} {ms : List ConsumerMessage} (h : Carries base e n ms e' n') :
    Carries (Function.update base (e' + 1) n') e n (ms ++ [.resetCounters]) (e' + 1) n' := by
  induction ms generalizing e n with
  | nil =>
    obtain ⟨rfl, rfl⟩ := h
    exact ⟨Function.update_self .., rfl, rfl⟩
  | cons m ms ih =>
    cases m with
    | resetCounters =>
      refine ⟨?_, ih h.2⟩
      rw [Function.update_of_ne (by have := Carries.epoch_le h.2; omega)]
      exact h.1
    | frame displayOrder => exact ⟨h.1, ih h.2⟩

/-- The messages the consumer has not taken. -/
def pending (s : State x) : List ConsumerMessage :=
  s.queue ++ (s.loop.outbox.map Prod.fst).toList

def History.stamped (h : History) (epoch : Nat) : Nat := h.stamps.countP fun st => st.epoch = epoch

def History.failed (h : History) (epoch : Nat) : Nat := h.readBackFailures.count epoch

/-! ## The invariant -/

/-- A stamp, where `stamped` frames of its epoch have been stamped and `failed`
have not been read back. -/
def Stamped (base : Nat → Nat) (h : History) (st : Stamp) : Prop :=
  st.epoch ≤ h.consumerEpoch ∧ ∃ j < History.stamped h st.epoch, ∃ f ≤ History.failed h st.epoch,
    st.displayOrder = base st.epoch + j + f ∧ st.index = UInt32.ofNat (j + 1)

/-- Where the consumer is: `next` is the display order after the frames it has
taken. -/
structure Position (base : Nat → Nat) (s : State x) (next : Nat) : Prop where
  pending : Carries base s.history.consumerEpoch next (pending s) s.history.epoch s.loop.submittedCount
  count : next = base s.history.consumerEpoch + History.stamped s.history s.history.consumerEpoch +
    History.failed s.history s.history.consumerEpoch + (if s.consumer.processing.isSome then 1 else 0)
  processing : ∀ displayOrder, s.consumer.processing = some displayOrder → displayOrder + 1 = next

/-- `base` gives the display order of the first frame of each epoch. -/
structure Inv (base : Nat → Nat) (s : State x) : Prop where
  displayOrder : s.encoder.displayOrder = s.loop.submittedCount
  frameNumberBase : base s.history.epoch = s.loop.frameNumberBase
  epoch_le : s.history.consumerEpoch ≤ s.history.epoch
  position : s.consumer.running = true → ∃ next, Position base s next
  frameNumber : s.consumer.frameNumber =
    UInt32.ofNat (History.stamped s.history s.history.consumerEpoch)
  stamps : ∀ st ∈ s.history.stamps, Stamped base s.history st
  failures : ∀ e ∈ s.history.readBackFailures, e ≤ s.history.consumerEpoch
  invalidations : ∀ i ∈ s.history.invalidations, i.epoch ≤ s.history.epoch ∧
    i.displayOrder = base i.epoch + (max i.index.toNat 1 - 1)

theorem inv_start (cfg : Config) : Inv (fun _ => 0) (State.start x cfg) where
  displayOrder := rfl
  frameNumberBase := rfl
  epoch_le := Nat.le_refl 0
  position := fun _ => ⟨0, ⟨⟨rfl, rfl⟩, rfl, fun _ h => nomatch h⟩⟩
  frameNumber := rfl
  stamps := fun _ h => absurd h List.not_mem_nil
  failures := fun _ h => absurd h List.not_mem_nil
  invalidations := fun _ h => absurd h List.not_mem_nil

/-! ## The encode loop -/

section Loop

variable {s : State x}

/-- What the loop waits for and what it told the encoder do not matter. -/
theorem Inv.setLocals (h : Inv base s) (phase : Phase) (pendingIdr hasEncoded : Bool) (calls : List EncoderCall) :
    Inv base { s with
      loop := { s.loop with phase, pendingIdr, hasEncoded }
      encoder := { s.encoder with calls } } :=
  ⟨h.displayOrder, h.frameNumberBase, h.epoch_le,
    fun hr => (h.position hr).imp fun _ hp => ⟨hp.pending, hp.count, hp.processing⟩,
    h.frameNumber, h.stamps, h.failures, h.invalidations⟩

theorem Inv.goto (h : Inv base s) (phase : Phase) : Inv base (goto phase s) :=
  h.setLocals phase _ _ _

theorem Inv.requestIdr (h : Inv base s) : Inv base (requestIdr s) :=
  h.setLocals _ true _ _

theorem Inv.setFlags (h : Inv base s) (pendingIdr hasEncoded : Bool) :
    Inv base { s with loop := { s.loop with pendingIdr, hasEncoded } } :=
  h.setLocals _ pendingIdr hasEncoded _

theorem Stamped.update {st : Stamp} {hist : History} (h : Stamped base hist st) {e v : Nat}
    (hlt : hist.consumerEpoch < e) : Stamped (Function.update base e v) hist st := by
  obtain ⟨hle, j, hj, f, hf, hd, hi⟩ := h
  refine ⟨hle, j, hj, f, hf, ?_, hi⟩
  rw [Function.update_of_ne (by omega), hd]

theorem inv_drainResets (h : Inv base s) (ho : s.loop.outbox = none) (requested : Bool) :
    ∃ base', Inv base' (drainResets requested s) := by
  cases requested with
  | false => exact ⟨base, h.setFlags false s.loop.hasEncoded⟩
  | true =>
    have hle := h.epoch_le
    refine ⟨Function.update base (s.history.epoch + 1) s.loop.submittedCount, h.displayOrder,
      Function.update_self .., Nat.le_succ_of_le hle, fun hr => ?_, h.frameNumber,
      fun st hst => (h.stamps st hst).update (Nat.lt_succ_of_le hle), h.failures, fun i hi => ?_⟩
    · obtain ⟨next, hp⟩ := h.position hr
      have hpend : pending s = s.queue := by simp [pending, ho]
      refine ⟨next, ?_, ?_, hp.processing⟩
      · have := hp.pending.reset
        rw [hpend] at this
        exact this
      · show next = Function.update base _ _ s.history.consumerEpoch + _ + _ + _
        rw [Function.update_of_ne (by omega)]
        exact hp.count
    · obtain ⟨hie, hid⟩ := h.invalidations i hi
      refine ⟨Nat.le_succ_of_le hie, ?_⟩
      rw [Function.update_of_ne (by omega), hid]

theorem Inv.invalidate (h : Inv base s) (request : Option (UInt32 × UInt32)) :
    Inv base (invalidate s request) := by
  cases request with
  | none => exact h.requestIdr
  | some range =>
    refine ⟨h.displayOrder, h.frameNumberBase, h.epoch_le,
      fun hr => (h.position hr).imp fun _ hp => ⟨hp.pending, hp.count, hp.processing⟩,
      h.frameNumber, h.stamps, h.failures, fun i hi => ?_⟩
    rcases List.mem_append.mp hi with hi | hi
    · exact h.invalidations i hi
    · obtain rfl := List.mem_singleton.mp hi
      refine ⟨Nat.le_refl _, ?_⟩
      rw [h.frameNumberBase]

theorem Inv.foldl_invalidate (h : Inv base s) (requests : List (Option (UInt32 × UInt32))) :
    Inv base (requests.foldl Moonshine.Impl.Pipeline.invalidate s) := by
  induction requests generalizing s with
  | nil => exact h
  | cons request requests ih => exact ih (h.invalidate request)

theorem Inv.submit (h : Inv base s) (ho : s.loop.outbox = none) (stopOnError : Bool) :
    Inv base (submit stopOnError s) := by
  refine ⟨congrArg (· + 1) h.displayOrder, h.frameNumberBase, h.epoch_le, fun hr => ?_,
    h.frameNumber, h.stamps, h.failures, h.invalidations⟩
  obtain ⟨next, hp⟩ := h.position hr
  have hpend : pending s = s.queue := by simp [pending, ho]
  refine ⟨next, ?_, hp.count, hp.processing⟩
  have := hp.pending.frame
  rw [hpend, ← h.displayOrder] at this
  show Carries base _ _ (s.queue ++ [.frame s.encoder.displayOrder]) _ (s.loop.submittedCount + 1)
  rw [← h.displayOrder]
  exact this

theorem Inv.receive (h : Inv base s) (ho : s.loop.outbox = none) (received : Received) :
    Inv base (receive s received) := by
  cases received with
  | timeout encoded =>
    unfold Moonshine.Impl.Pipeline.receive
    dsimp only
    split
    · exact (h.submit ho false).goto .resets
    · exact h.goto .resets
  | disconnected => exact h.goto .stopped
  | frame captured =>
    unfold Moonshine.Impl.Pipeline.receive
    dsimp only
    split
    · exact h.goto .resets
    · cases captured with
      | skipped => exact h.goto .resets
      | fatal => exact h.goto .stopped
      | encodeFailed => exact (h.setFlags s.loop.pendingIdr true).goto .resets
      | encoded => exact ((h.setFlags s.loop.pendingIdr true).submit ho true).goto .resets

theorem inv_send {s' : State x} (h : Inv base s) (hs : send s = some s') : Inv base s' := by
  unfold send at hs
  cases ho : s.loop.outbox with
  | none =>
    rw [ho] at hs
    cases hs
  | some out =>
    obtain ⟨m, stopOnError⟩ := out
    rw [ho] at hs
    dsimp only at hs
    by_cases hr : s.consumer.running = false
    · rw [if_pos hr] at hs
      have hbase : Inv base { s with loop := { s.loop with outbox := none } } :=
        ⟨h.displayOrder, h.frameNumberBase, h.epoch_le,
          fun hr' => absurd (hr.symm.trans hr') Bool.false_ne_true,
          h.frameNumber, h.stamps, h.failures, h.invalidations⟩
      cases stopOnError <;> cases hs
      · exact hbase
      · exact hbase.goto .stopped
    · rw [if_neg hr] at hs
      split at hs
      · cases hs
        refine ⟨h.displayOrder, h.frameNumberBase, h.epoch_le, fun hr' => ?_, h.frameNumber,
          h.stamps, h.failures, h.invalidations⟩
        obtain ⟨next, hp⟩ := h.position hr'
        refine ⟨next, ?_, hp.count, hp.processing⟩
        have hpend := hp.pending
        rw [pending, ho] at hpend
        simpa [pending] using hpend
      · cases hs

end Loop

/-! ## The consumer -/

section Consumer

variable {s s' : State x}

theorem stamped_eq_zero {hist : History} {e : Nat} (h : ∀ st ∈ hist.stamps, st.epoch ≤ hist.consumerEpoch)
    (he : hist.consumerEpoch < e) : History.stamped hist e = 0 := by
  refine List.countP_eq_zero.mpr fun st hst => ?_
  have := h st hst
  simp only [decide_eq_true_eq]
  omega

theorem failed_eq_zero {hist : History} {e : Nat} (h : ∀ d ∈ hist.readBackFailures, d ≤ hist.consumerEpoch)
    (he : hist.consumerEpoch < e) : History.failed hist e = 0 :=
  List.count_eq_zero.mpr fun hmem => by
    have := h e hmem
    omega

theorem inv_take (h : Inv base s) (hs : take s = some s') : Inv base s' := by
  unfold take at hs
  split at hs
  · rename_i queue hr hp hq
    cases hs
    obtain ⟨next, hpend, hcount, -⟩ := h.position hr
    rw [pending, hq] at hpend
    obtain ⟨hbase, hpend⟩ := hpend
    have hz₁ : History.stamped s.history (s.history.consumerEpoch + 1) = 0 :=
      stamped_eq_zero (fun st hst => (h.stamps st hst).1) (Nat.lt_succ_self _)
    have hz₂ : History.failed s.history (s.history.consumerEpoch + 1) = 0 :=
      failed_eq_zero h.failures (Nat.lt_succ_self _)
    refine ⟨h.displayOrder, h.frameNumberBase, hpend.epoch_le, fun _ => ⟨next, hpend, ?_, ?_⟩, ?_,
      fun st hst => ?_, fun e he => Nat.le_succ_of_le (h.failures e he), h.invalidations⟩
    · show next = base (s.history.consumerEpoch + 1) +
        History.stamped s.history (s.history.consumerEpoch + 1) +
        History.failed s.history (s.history.consumerEpoch + 1) + (if s.consumer.processing.isSome then 1 else 0)
      rw [hz₁, hz₂, hbase, hp]
      rfl
    · intro displayOrder hd
      rw [show s.consumer.processing = some displayOrder from hd] at hp
      cases hp
    · show 0 = UInt32.ofNat (History.stamped s.history (s.history.consumerEpoch + 1))
      rw [hz₁]
      rfl
    · obtain ⟨hle, hrest⟩ := h.stamps st hst
      exact ⟨Nat.le_succ_of_le hle, hrest⟩
  · rename_i displayOrder queue hr hp hq
    cases hs
    obtain ⟨next, hpend, hcount, -⟩ := h.position hr
    rw [pending, hq] at hpend
    obtain ⟨rfl, hpend⟩ := hpend
    refine ⟨h.displayOrder, h.frameNumberBase, h.epoch_le, fun _ => ⟨displayOrder + 1, hpend, ?_, ?_⟩,
      h.frameNumber, h.stamps, h.failures, h.invalidations⟩
    · rw [hp] at hcount
      exact congrArg (· + 1) hcount
    · intro d hd
      cases hd
      rfl
  · cases hs

theorem stamped_append (hist : History) (st : Stamp) (e : Nat) :
    History.stamped { hist with stamps := hist.stamps ++ [st] } e =
      History.stamped hist e + if st.epoch = e then 1 else 0 := by
  by_cases he : st.epoch = e <;> simp [History.stamped, he]

theorem failed_append (hist : History) (d e : Nat) :
    History.failed { hist with readBackFailures := hist.readBackFailures ++ [d] } e =
      History.failed hist e + if d = e then 1 else 0 := by
  by_cases he : d = e <;> simp [History.failed, List.count_append, he]

theorem frameNumber_sendPacket (cfg : Config) (keys : SessionKeyData) (displayOrder : Nat)
    (data : List Byte) (isKeyFrame : Bool) (latency : UInt16) (networkOpen : Bool) (c : Consumer x) :
    (c.sendPacket cfg keys displayOrder data isKeyFrame latency networkOpen).frameNumber =
      c.frameNumber + 1 ∧
    (c.sendPacket cfg keys displayOrder data isKeyFrame latency networkOpen).processing =
      c.processing := by
  unfold Consumer.sendPacket
  dsimp only
  split <;> exact ⟨rfl, rfl⟩

/-- A frame that is not read back. -/
theorem Inv.readBackFailed (h : Inv base s) (hr : s.consumer.running = true) {displayOrder : Nat}
    (hp : s.consumer.processing = some displayOrder) :
    Inv base { s with
      inFlight := s.inFlight - 1
      consumer := { s.consumer with processing := none }
      history := { s.history with
        readBackFailures := s.history.readBackFailures ++ [s.history.consumerEpoch] } } := by
  refine ⟨h.displayOrder, h.frameNumberBase, h.epoch_le, fun _ => ?_, h.frameNumber,
    fun st hst => ?_, fun e he => ?_, h.invalidations⟩
  · obtain ⟨next, hpend, hcount, -⟩ := h.position hr
    refine ⟨next, hpend, ?_, fun d hd => nomatch hd⟩
    rw [failed_append, if_pos rfl]
    rw [hp] at hcount
    exact hcount
  · obtain ⟨hle, j, hj, f, hf, hrest⟩ := h.stamps st hst
    refine ⟨hle, j, hj, f, ?_, hrest⟩
    rw [failed_append]
    exact Nat.le_add_right_of_le hf
  · rcases List.mem_append.mp he with he | he
    · exact h.failures e he
    · exact Nat.le_of_eq (List.mem_singleton.mp he)

/-- A frame that is, and gets the next number. -/
theorem Inv.stamp (h : Inv base s) (hr : s.consumer.running = true) {displayOrder : Nat}
    (hp : s.consumer.processing = some displayOrder) {consumer : Consumer x}
    (hn : consumer.frameNumber = s.consumer.frameNumber + 1) (hnone : consumer.processing = none) :
    Inv base { s with
      inFlight := s.inFlight - 1
      consumer := consumer
      history := { s.history with
        stamps := s.history.stamps ++
          [⟨s.history.consumerEpoch, s.consumer.frameNumber + 1, displayOrder⟩] } } := by
  obtain ⟨next, hpend, hcount, hlast⟩ := h.position hr
  have hd := hlast displayOrder hp
  rw [hp] at hcount
  replace hcount : next = base s.history.consumerEpoch +
      History.stamped s.history s.history.consumerEpoch +
      History.failed s.history s.history.consumerEpoch + 1 := hcount
  refine ⟨h.displayOrder, h.frameNumberBase, h.epoch_le, fun _ => ?_, ?_, fun st hst => ?_,
    h.failures, h.invalidations⟩
  · refine ⟨next, hpend, ?_, fun d hd => ?_⟩
    · rw [stamped_append, if_pos rfl, hnone]
      show next = base s.history.consumerEpoch +
        (History.stamped s.history s.history.consumerEpoch + 1) +
        History.failed s.history s.history.consumerEpoch + 0
      omega
    · rw [show consumer.processing = some d from hd] at hnone
      cases hnone
  · show consumer.frameNumber = _
    rw [stamped_append, if_pos rfl, hn, h.frameNumber, UInt32.ofNat_add]
    rfl
  · rcases List.mem_append.mp hst with hst | hst
    · obtain ⟨hle, j, hj, hrest⟩ := h.stamps st hst
      refine ⟨hle, j, ?_, hrest⟩
      rw [stamped_append]
      exact Nat.lt_add_right _ hj
    · obtain rfl := List.mem_singleton.mp hst
      refine ⟨Nat.le_refl _, History.stamped s.history s.history.consumerEpoch, ?_,
        History.failed s.history s.history.consumerEpoch, Nat.le_refl _, ?_, ?_⟩
      · rw [stamped_append, if_pos rfl]
        exact Nat.lt_succ_self _
      · show displayOrder = base s.history.consumerEpoch + _ + _
        omega
      · show s.consumer.frameNumber + 1 = _
        rw [h.frameNumber, UInt32.ofNat_add]
        rfl

theorem inv_finish {cfg : Config} {readBack : ReadBack} {keys : SessionKeyData} {latency : UInt16}
    {networkOpen : Bool} (h : Inv base s)
    (hs : finish cfg readBack keys latency networkOpen s = some s') : Inv base s' := by
  unfold finish at hs
  split at hs
  · rename_i displayOrder hr hp
    cases readBack with
    | packet data isKeyFrame =>
      cases hs
      obtain ⟨hn, hnone⟩ := frameNumber_sendPacket cfg keys displayOrder data isKeyFrame latency
        networkOpen { s.consumer with processing := none }
      exact h.stamp hr hp hn hnone
    | bufferOverflow =>
      cases hs
      exact h.readBackFailed hr hp
    | failed =>
      cases hs
      exact h.readBackFailed hr hp
  · cases hs

end Consumer

/-! ## Runs -/

theorem atPhase_eq_some {s next s' : State x} {phase : Phase} (h : atPhase phase s next = some s') :
    s.loop.outbox = none ∧ s' = next := by
  unfold atPhase at h
  split at h
  · rename_i hp
    cases h
    exact ⟨hp.2, rfl⟩
  · cases h

theorem inv_step {cfg : Config} {s s' : State x} {act : Action} (h : ∃ base, Inv base s)
    (hs : step cfg s act = some s') : ∃ base, Inv base s' := by
  obtain ⟨base, h⟩ := h
  cases act with
  | shutdown =>
    obtain ⟨-, rfl⟩ := atPhase_eq_some hs
    exact ⟨base, h.goto _⟩
  | drainResets requested =>
    obtain ⟨ho, rfl⟩ := atPhase_eq_some hs
    exact (inv_drainResets h ho requested).imp fun _ h => h.goto _
  | drainIdrRequests requested =>
    obtain ⟨-, rfl⟩ := atPhase_eq_some hs
    cases requested with
    | false => exact ⟨base, h.goto _⟩
    | true => exact ⟨base, h.requestIdr.goto _⟩
  | drainInvalidations requests =>
    obtain ⟨-, rfl⟩ := atPhase_eq_some hs
    exact ⟨base, (h.foldl_invalidate requests).goto _⟩
  | receive received =>
    obtain ⟨ho, rfl⟩ := atPhase_eq_some hs
    exact ⟨base, h.receive ho received⟩
  | send => exact ⟨base, inv_send h hs⟩
  | take => exact ⟨base, inv_take h hs⟩
  | finish readBack keys latency networkOpen => exact ⟨base, inv_finish h hs⟩

/-- A request about a frame index never leads past the frame that was stamped
with it in that epoch, and leads to it where every frame of the epoch was read
back and the indices have not wrapped. -/
theorem invalidation_aligned (cfg : Config) (acts : List Action) {s : State x}
    (hrun : exec (step cfg) (State.start x cfg) acts = some s)
    (i : Invalidation) (st : Stamp) (hi : i ∈ s.history.invalidations) (hst : st ∈ s.history.stamps)
    (hepoch : st.epoch = i.epoch) (hindex : st.index = i.index) :
    i.displayOrder ≤ st.displayOrder ∧
      (i.epoch ∉ s.history.readBackFailures → History.stamped s.history i.epoch < 2 ^ 32 →
        i.displayOrder = st.displayOrder) := by
  obtain ⟨base, h⟩ := exec_inv (fun _ _ _ => inv_step) ⟨_, inv_start cfg⟩ hrun
  obtain ⟨-, hid⟩ := h.invalidations i hi
  obtain ⟨-, j, hj, f, hf, hsd, hsi⟩ := h.stamps st hst
  rw [hepoch] at hj hf hsd
  have hnat : i.index.toNat = (j + 1) % 2 ^ 32 := by
    rw [← hindex, hsi, UInt32.toNat_ofNat']
  have hle : (j + 1) % 2 ^ 32 ≤ j + 1 := Nat.mod_le _ _
  refine ⟨by rw [hid, hsd]; omega, fun hfail hfew => ?_⟩
  have hzero : History.failed s.history i.epoch = 0 := List.count_eq_zero.mpr hfail
  rw [Nat.mod_eq_of_lt (by omega)] at hnat
  rw [hid, hsd]
  omega

/-! ## Runs of small frames -/

/-- A stream in the clear, with packets that hold a small frame. -/
def exampleConfig : Config where
  context := { (default : VideoStreamContext) with fps := 60, packetSize := 32 }
  fecPercentage := 0

/-- One turn of the loop, whose frame the consumer sends before the next. -/
def turn (readBack : ReadBack) : List Action :=
  [.drainResets false, .drainIdrRequests false, .drainInvalidations [], .receive (.frame .encoded),
    .send, .take] ++ [.finish readBack ⟨[], 0⟩ 0 true]

def smallPacket : ReadBack := .packet [1, 2, 3] false

/-- The start of a turn, with a request to invalidate from the first frame on. -/
def invalidateFirst : List Action :=
  [.drainResets false, .drainIdrRequests false, .drainInvalidations [some (1, 1)]]

/-- The first frame is lost, the second becomes frame 1. -/
theorem invalidation_aligned_small :
    ∃ s, exec (step exampleConfig) (State.start Packetizer.repetition exampleConfig)
        (turn .failed ++ turn smallPacket ++ invalidateFirst) = some s ∧
      s.history.invalidations = [⟨0, 1, 0⟩] ∧ s.history.stamps = [⟨0, 1, 1⟩] ∧
      (0 ≤ 1 ∧ (0 ∉ s.history.readBackFailures → History.stamped s.history 0 < 2 ^ 32 → 0 = 1)) :=
  ⟨_, rfl, rfl, rfl, invalidation_aligned exampleConfig
    (turn .failed ++ turn smallPacket ++ invalidateFirst) rfl ⟨0, 1, 0⟩ ⟨0, 1, 1⟩
    List.mem_cons_self List.mem_cons_self rfl rfl⟩

/-- The state after `n` turns in which every frame is read back and sent. -/
def afterTurns (n : Nat) (hasEncoded : Bool) (p : Moonshine.Impl.Packetizer.State Packetizer.repetition)
    (sent : List ShardBatch) : State Packetizer.repetition where
  loop := ⟨.resets, none, false, hasEncoded, n, 0⟩
  encoder := ⟨n, []⟩
  inFlight := 0
  queue := []
  consumer := ⟨UInt32.ofNat n, p, none, true, sent⟩
  history := ⟨0, 0, [], (List.range n).map fun j => ⟨0, UInt32.ofNat (j + 1), j⟩, []⟩

theorem exec_turn (n : Nat) (hasEncoded : Bool)
    {p : Moonshine.Impl.Packetizer.State Packetizer.repetition} (hoff : p.packetizer.encrypt = false)
    (sent : List ShardBatch) :
    ∃ p' sent', p'.packetizer.encrypt = false ∧
      exec (step exampleConfig) (afterTurns n hasEncoded p sent) (turn smallPacket) =
        some (afterTurns (n + 1) true p' sent') := by
  obtain ⟨batch, p', hrun⟩ := Packetizer.packetize_one_shard
    (a := exampleConfig.args (UInt32.ofNat n + 1) n [1, 2, 3] false 0)
    (show 8 + 3 ≤ 32 - 16 by decide) (show 255 * (16 + 32) ≤ isizeMax by decide) ⟨[], 0⟩ hoff
  have hoff' := Packetizer.encrypt_packetize ⟨[], 0⟩
    (exampleConfig.args (UInt32.ofNat n + 1) n [1, 2, 3] false 0) p
  rw [hrun, hoff] at hoff'
  refine ⟨p', sent ++ [batch], hoff', ?_⟩
  have hsend : (⟨UInt32.ofNat n, p, none, true, sent⟩ : Consumer Packetizer.repetition).sendPacket
      exampleConfig ⟨[], 0⟩ n [1, 2, 3] false 0 true =
        ⟨UInt32.ofNat n + 1, p', none, true, sent ++ [batch]⟩ := by
    unfold Consumer.sendPacket
    dsimp only
    rw [hrun]
    rfl
  let taken : State Packetizer.repetition :=
    { loop := ⟨.resets, none, false, true, n + 1, 0⟩
      encoder := ⟨n + 1, []⟩
      inFlight := 1
      queue := []
      consumer := ⟨UInt32.ofNat n, p, some n, true, sent⟩
      history := ⟨0, 0, [], (List.range n).map fun j => ⟨0, UInt32.ofNat (j + 1), j⟩, []⟩ }
  refine exec_append.mpr ⟨taken, rfl, ?_⟩
  show some { taken with
    inFlight := 0
    consumer := Consumer.sendPacket exampleConfig ⟨[], 0⟩ n [1, 2, 3] false 0 true
      ⟨UInt32.ofNat n, p, none, true, sent⟩
    history := { taken.history with
      stamps := taken.history.stamps ++ [(⟨0, UInt32.ofNat n + 1, n⟩ : Stamp)] } } = _
  rw [hsend]
  simp [afterTurns, taken, List.range_succ, UInt32.ofNat_add]

theorem exec_turns (n : Nat) :
    ∃ hasEncoded p sent, p.packetizer.encrypt = false ∧
      exec (step exampleConfig) (State.start Packetizer.repetition exampleConfig)
        (List.replicate n (turn smallPacket)).flatten = some (afterTurns n hasEncoded p sent) := by
  induction n with
  | zero => exact ⟨false, _, [], Packetizer.encrypt_warmUp _ _ _, rfl⟩
  | succ n ih =>
    obtain ⟨hasEncoded, p, sent, hoff, hrun⟩ := ih
    obtain ⟨p', sent', hoff', hturn⟩ := exec_turn n hasEncoded hoff sent
    refine ⟨true, p', sent', hoff', ?_⟩
    rw [List.replicate_succ', List.flatten_append, List.flatten_singleton]
    exact exec_append.mpr ⟨_, hrun, hturn⟩

theorem exec_invalidateFirst (n : Nat) (hasEncoded : Bool)
    (p : Moonshine.Impl.Packetizer.State Packetizer.repetition) (sent : List ShardBatch) :
    ∃ s, exec (step exampleConfig) (afterTurns n hasEncoded p sent) invalidateFirst = some s ∧
      s.history.invalidations = [⟨0, 1, 0⟩] ∧
      s.history.stamps = (List.range n).map (fun j => ⟨0, UInt32.ofNat (j + 1), j⟩) ∧
      s.history.readBackFailures = [] :=
  ⟨_, rfl, rfl, rfl, rfl⟩

/-- The frame index of the 2^32 + 1st frame is 1 again. -/
theorem wrapped_index :
    ∃ s, exec (step exampleConfig) (State.start Packetizer.repetition exampleConfig)
        ((List.replicate (2 ^ 32 + 1) (turn smallPacket)).flatten ++ invalidateFirst) = some s ∧
      ∃ i ∈ s.history.invalidations, ∃ st ∈ s.history.stamps, st.epoch = i.epoch ∧
        st.index = i.index ∧ i.epoch ∉ s.history.readBackFailures ∧
        i.displayOrder ≠ st.displayOrder := by
  obtain ⟨hasEncoded, p, sent, -, hrun⟩ := exec_turns (2 ^ 32 + 1)
  obtain ⟨s, hs, hinv, hstamps, hfail⟩ := exec_invalidateFirst (2 ^ 32 + 1) hasEncoded p sent
  refine ⟨s, exec_append.mpr ⟨_, hrun, hs⟩, ⟨0, 1, 0⟩, ?_, ⟨0, 1, 2 ^ 32⟩, ?_, rfl, rfl, ?_, ?_⟩
  · rw [hinv]
    exact List.mem_singleton_self _
  · rw [hstamps]
    exact List.mem_map.mpr ⟨2 ^ 32, List.mem_range.mpr (Nat.lt_succ_self _), rfl⟩
  · rw [hfail]
    exact List.not_mem_nil
  · show (0 : Nat) ≠ 2 ^ 32
    decide

end Moonshine.Proof.Pipeline
