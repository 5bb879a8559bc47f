import Moonshine.Proof.Audio.Buffer
import Moonshine.Proof.Audio.Streams

/-!
# Credit

The credit of a client on a channel is what the create reply and the requests
granted it and it has not written. A stream is balanced where its buffer has room
for the credit and for the demand to come (`Balanced`). A flush, an uncork, an
underrun and a forced prebuffering start the demand over and forget the credit;
where what they demand fits beside it, the stream stays balanced
(`perform_sound`), and then no write within the credit overflows
(`no_overflow`).
-/

namespace Moonshine.Proof.Credit

open Moonshine.Framework Moonshine.Impl Moonshine.Impl.Audio
open Moonshine.Proof.PlaybackBuffer Moonshine.Proof.PulseServer

variable {r : Resampler}

/-! ## Accounts -/

/-- What a client was granted on a channel, and what it has written there. -/
structure Account where
  granted : Nat
  written : Nat
  deriving DecidableEq, Repr

namespace Account

def credit (a : Account) : Nat := a.granted - a.written

def grant (a : Account) (n : Nat) : Account := { a with granted := a.granted + n }

/-- A create reply opens an account, a request adds to it. -/
def receive (channel : UInt32) (a : Account) : Message → Account
  | .createReply _ ch _ _ requestedBytes => if ch = channel then ⟨requestedBytes.toNat, 0⟩ else a
  | .request ch length => if ch = channel then a.grant length.toNat else a
  | .ack _ | .error _ | .bufferAttrReply _ _ | .started _ | .underflow _ | .overflow _ => a

def spend (channel : UInt32) (a : Account) : Event → Account
  | .packet (.write ch payload) =>
    if ch = channel then { a with written := a.written + payload.length } else a
  | .packet (.command _ _) | .tick => a

def record (channel : UInt32) (a : Account) (e : Event) (messages : List Message) : Account :=
  messages.foldl (receive channel) (a.spend channel e)

end Account

/-- The account of a client on a channel, after its events. -/
def account (channel : UInt32) (events : List (Event × List Message)) : Account :=
  events.foldl (fun a e => a.record channel e.1 e.2) ⟨0, 0⟩

theorem account_append (channel : UInt32) (events : List (Event × List Message)) (e : Event)
    (messages : List Message) : account channel (events ++ [(e, messages)]) =
      (account channel events).record channel e messages := by
  rw [account, List.foldl_append]
  rfl

/-- The messages that change the account of a channel. -/
def grants (channel : UInt32) : Message → Bool
  | .createReply _ ch _ _ _ | .request ch _ => ch = channel
  | .ack _ | .error _ | .bufferAttrReply _ _ | .started _ | .underflow _ | .overflow _ => false

theorem foldl_receive_filter (channel : UInt32) (a : Account) (messages : List Message) :
    (messages.filter (grants channel)).foldl (Account.receive channel) a =
      messages.foldl (Account.receive channel) a := by
  induction messages generalizing a with
  | nil => rfl
  | cons m ms ih =>
    rw [List.filter_cons, List.foldl_cons]
    by_cases hm : grants channel m
    · rw [if_pos hm, List.foldl_cons, ih]
    · have hkeep : Account.receive channel a m = a := by
        cases m <;> first | rfl | exact if_neg (by simpa [grants] using hm)
      rw [if_neg hm, ih, hkeep]

theorem foldl_receive_of_forall {channel : UInt32} {messages : List Message}
    (h : ∀ m ∈ messages, grants channel m = false) (a : Account) :
    messages.foldl (Account.receive channel) a = a := by
  rw [← foldl_receive_filter, List.filter_eq_nil_iff.mpr fun m hm => by simp [h m hm]]
  rfl

/-! ## Balanced streams -/

/-- What was written is within what was granted, and the buffer has room for the
rest and for the demand. -/
structure Balanced (a : Account) (s : PlaybackStream r) : Prop where
  written_le : a.written ≤ a.granted
  missing_nonneg : 0 ≤ s.missing
  fits : s.buffer.lenBytes + a.credit + s.missing.toNat ≤ s.bufferAttr.maxLength.toNat

section Stream

variable {a : Account} {s : PlaybackStream r}

/-- A request makes credit of demand. -/
theorem Balanced.popMissing (h : Balanced a s) (inPrebuf : Bool) :
    (popMissing inPrebuf s).1 < 2 ^ 32 ∧
      Balanced (a.grant (popMissing inPrebuf s).1) (popMissing inPrebuf s).2 := by
  have hmax := s.bufferAttr.maxLength.toNat_lt
  have hle := h.written_le
  have hfits := h.fits
  rcases popMissing_cases inPrebuf s with heq | heq
  · rw [heq]
    exact ⟨Nat.two_pow_pos 32, h⟩
  · rw [heq]
    refine ⟨show s.missing.toNat < 2 ^ 32 by omega, Nat.le_add_right_of_le hle, Int.le_refl 0, ?_⟩
    show s.buffer.lenBytes + (a.granted + s.missing.toNat - a.written) + 0 ≤ s.bufferAttr.maxLength.toNat
    rw [Account.credit] at hfits
    omega

theorem writeStream_of_le (payload : List Byte) (s : PlaybackStream r) (channel : UInt32)
    (hroom : payload.length ≤ s.bufferAttr.maxLength.toNat - s.buffer.lenBytes) :
    (writeStream channel payload s).1.buffer = s.buffer.write payload ∧
      ∀ m ∈ (writeStream channel payload s).2, m = .started channel := by
  have htake : payload.take (s.bufferAttr.maxLength.toNat - s.buffer.lenBytes) = payload :=
    List.take_of_length_le hroom
  unfold writeStream
  simp only [htake, if_neg (Nat.not_lt.mpr hroom), List.nil_append, true_and]
  intro m hm
  split at hm
  · split at hm
    · cases hm
    · exact List.mem_singleton.mp hm
  · cases hm

/-- A write within the credit is taken whole. -/
theorem Balanced.write (h : Balanced a s) {payload : List Byte}
    (hle : a.written + payload.length ≤ a.granted) (channel : UInt32) :
    (∀ m ∈ (writeStream channel payload s).2, m = .started channel) ∧
      Balanced { a with written := a.written + payload.length } (writeStream channel payload s).1 := by
  have hfits := h.fits
  rw [Account.credit] at hfits
  obtain ⟨hbuffer, hmessages⟩ := writeStream_of_le payload s channel (by omega)
  refine ⟨hmessages, hle, h.missing_nonneg, ?_⟩
  rw [hbuffer, lenBytes_write]
  show s.buffer.lenBytes + payload.length + (a.granted - (a.written + payload.length)) +
    s.missing.toNat ≤ s.bufferAttr.maxLength.toNat
  omega

theorem Balanced.setState (h : Balanced a s) (state : StreamState) : Balanced a { s with state } :=
  ⟨h.written_le, h.missing_nonneg, h.fits⟩

theorem Balanced.cork (h : Balanced a s) : Balanced a (cork s) := by
  unfold Audio.cork
  split
  · exact h.setState _
  · exact h.setState _
  · exact h

theorem Balanced.trigger (h : Balanced a s) : Balanced a (trigger s) := by
  unfold Audio.trigger
  split
  · exact h.setState _
  · exact h

/-! ## Demand that starts over -/

theorem Balanced.flush (h : Balanced a s)
    (hfits : a.credit + s.bufferAttr.targetLength.toNat ≤ s.bufferAttr.maxLength.toNat) :
    Balanced a (flush s) := by
  refine ⟨h.written_le, Int.natCast_nonneg _, ?_⟩
  show s.buffer.clear.lenBytes + a.credit + s.bufferAttr.targetLength.toNat ≤ _
  rwa [lenBytes_clear, Nat.zero_add]

theorem Balanced.prebuf (h : Balanced a s) (hfits : s.state = .playing →
    s.buffer.lenBytes + a.credit + s.bufferAttr.preBuffering.toNat ≤ s.bufferAttr.maxLength.toNat) :
    Balanced a (prebuf s) := by
  unfold Audio.prebuf
  split
  · next hs => exact ⟨h.written_le, Int.natCast_nonneg _, hfits hs⟩
  · exact h

theorem Balanced.setBufferAttr (h : Balanced a s) {attr attr' : BufferAttr} {s' : PlaybackStream r}
    (hs : setBufferAttr attr s = .ok s')
    (hattr : configureBuffer s.buffer.buffer.sampleSpec attr = .ok attr')
    (hfits : s.buffer.lenBytes + a.credit +
      (attr'.targetLength.toNat - (s.buffer.lenBytes + s.requested)) ≤ attr'.maxLength.toNat) :
    Balanced a s' := by
  rw [Audio.setBufferAttr, hattr, Outcome.ok_bind, Outcome.pure_eq, Outcome.ok.injEq] at hs
  subst hs
  exact ⟨h.written_le, Int.natCast_nonneg _, hfits⟩

/-! ## Requests -/

/-- The account after the request of `n` bytes, if any. -/
theorem foldl_receive_request {n : Nat} (hn : n < 2 ^ 32) (channel : UInt32) (a : Account) :
    (if n > 0 then [.request channel (UInt32.ofNat n)] else []).foldl (Account.receive channel) a =
      a.grant n := by
  split
  · show (if channel = channel then a.grant (UInt32.ofNat n).toNat else a) = a.grant n
    rw [if_pos rfl, UInt32.toNat_ofNat_of_lt' hn]
  · next h =>
    rw [Nat.eq_zero_of_not_pos h]
    rfl

theorem uncork_of_corked (channel : UInt32) (hs : s.state = .corked) :
    ∃ missing : Nat, missing = s.bufferAttr.targetLength.toNat - s.buffer.lenBytes ∧ ∃ state,
      uncork channel s =
        let p := popMissing true { s with missing, requested := 0 }
        ({ p.2 with state }, if p.1 > 0 then [.request channel (UInt32.ofNat p.1)] else []) := by
  refine ⟨_, rfl, ?_⟩
  simp only [uncork, hs]
  split
  · exact ⟨_, rfl⟩
  · exact ⟨_, rfl⟩

theorem Balanced.uncork (h : Balanced a s) (channel : UInt32) (hfits : s.state = .corked →
    a.credit + max s.bufferAttr.targetLength.toNat s.buffer.lenBytes ≤ s.bufferAttr.maxLength.toNat) :
    Balanced ((uncork channel s).2.foldl (Account.receive channel) a) (uncork channel s).1 := by
  by_cases hs : s.state = .corked
  · obtain ⟨missing, hmissing, state, heq⟩ := uncork_of_corked channel hs
    have hfits := hfits hs
    have hrestart : Balanced a { s with missing, requested := 0 } := by
      refine ⟨h.written_le, Int.natCast_nonneg _, ?_⟩
      show s.buffer.lenBytes + a.credit + missing ≤ s.bufferAttr.maxLength.toNat
      omega
    obtain ⟨hlt, hpop⟩ := hrestart.popMissing true
    rw [heq]
    dsimp only
    rw [foldl_receive_request hlt]
    exact hpop.setState state
  · have heq : Audio.uncork channel s = (s, []) := by
      unfold Audio.uncork
      split
      · next h => exact absurd h hs
      · rfl
    rw [heq]
    exact h

/-! ## The clock tick -/

/-- An underrun, which starts the demand over, leaves room for the credit. -/
def UnderrunFits (numFrames : Nat) (a : Account) (s : PlaybackStream r) : Prop :=
  s.state = .playing → 0 < s.bufferAttr.preBuffering → s.buffer.drain numFrames = .ok none →
    s.buffer.lenBytes + a.credit + s.bufferAttr.preBuffering.toNat ≤ s.bufferAttr.maxLength.toNat

theorem Balanced.take (h : Balanced a s) {buffer : PlaybackBuffer r}
    (hle : buffer.lenBytes ≤ s.buffer.lenBytes) : Balanced a (PlaybackStream.take buffer s) := by
  have hmissing := h.missing_nonneg
  have hfits := h.fits
  refine ⟨h.written_le, by show 0 ≤ s.missing + _; omega, ?_⟩
  show buffer.lenBytes + a.credit + (s.missing + (s.buffer.lenBytes - buffer.lenBytes : Nat)).toNat ≤
    s.bufferAttr.maxLength.toNat
  omega

theorem Balanced.drainPhase (h : Balanced a s) {numFrames : Nat} (hfits : UnderrunFits numFrames a s)
    {channel : UInt32} {res : PlaybackStream r × List Message × Option UInt32}
    (hd : drainPhase numFrames channel s = .ok res) :
    Balanced (res.2.1.foldl (Account.receive channel) a) res.1 := by
  cases drainPhase_cases hd with
  | idle => exact h
  | underrun hs hpre hdrain => exact ⟨h.written_le, Int.natCast_nonneg _, hfits hs hpre hdrain⟩
  | starved => exact h
  | played _ hdrain => exact h.take (drain_lenBytes_le hdrain)
  | drained _ hdrain => exact h.take (drain_lenBytes_le hdrain)

theorem Balanced.requestPhase (h : Balanced a s) (channel : UInt32) :
    Balanced ((requestPhase channel s).2.foldl (Account.receive channel) a) (requestPhase channel s).1 := by
  rcases requestPhase_cases channel s with ⟨seq, -, heq⟩ | ⟨-, heq⟩
  · rw [heq]
    exact h
  · obtain ⟨hlt, hpop⟩ := h.popMissing s.isPrebuffering
    rw [heq, foldl_receive_request hlt]
    exact hpop

theorem Balanced.tickStream (h : Balanced a s) {numFrames : Nat} (hfits : UnderrunFits numFrames a s)
    {channel : UInt32} {t : Ticked r} (ht : tickStream numFrames channel s = .ok t) :
    Balanced (t.messages.foldl (Account.receive channel) a) t.stream := by
  obtain ⟨res, hd, rfl⟩ := tickStream_eq_ok.mp ht
  rw [List.foldl_append]
  exact (h.drainPhase hfits hd).requestPhase channel

end Stream

/-! ## Clients -/

/-- The stream of the channel, if it is there, is balanced. -/
def Sound (channel : UInt32) (a : Account) (c : Client r) : Prop :=
  ∀ s, c.playbackStreams.get? channel = some s → Balanced a s

section Client

variable {channel : UInt32} {a : Account} {c : Client r}

/-- A tick of another channel's stream grants this one nothing. -/
theorem grants_tickStream {numFrames : Nat} {ch : UInt32} {s : PlaybackStream r} {t : Ticked r}
    (ht : tickStream numFrames ch s = .ok t) (hch : ch ≠ channel) :
    t.messages.filter (grants channel) = [] := by
  refine List.filter_eq_nil_iff.mpr fun m hm => ?_
  rcases mem_tickStream ht hm with rfl | ⟨length, rfl⟩
  · exact Bool.false_ne_true
  · simpa only [grants, decide_eq_true_eq] using hch

theorem Sound.clockTick (h : Sound channel a c) {numFrames : Nat}
    (hfits : ∀ s, c.playbackStreams.get? channel = some s → UnderrunFits numFrames a s)
    {c' : Client r} {messages : List Message} (hc : clockTick numFrames c = .ok (c', messages)) :
    Sound channel (messages.foldl (Account.receive channel) a) c' := by
  obtain ⟨ticked, hticked, rfl, rfl⟩ := clockTick_eq_ok.mp hc
  intro s' hs'
  rw [OrdMap.get?_filterMap, Option.bind_eq_some_iff] at hs'
  obtain ⟨t, htok, hs'⟩ := hs'
  obtain ⟨s, hs, ht⟩ := (OrdMap.get?_mapM hticked).mp htok
  have hothers : ∀ e ∈ ticked.entries, e.1 ≠ channel → e.2.messages.filter (grants channel) = [] :=
    fun e he hne => by
      obtain ⟨s, -, ht⟩ := (OrdMap.get?_mapM hticked).mp (OrdMap.get?_eq_some.mpr he)
      exact grants_tickStream ht hne
  have hacks : (ticked.entries.filterMap fun e => e.2.done.map .ack).filter (grants channel) = [] := by
    refine List.filter_eq_nil_iff.mpr fun m hm => ?_
    obtain ⟨e, -, he⟩ := List.mem_filterMap.mp hm
    obtain ⟨seq, -, rfl⟩ := Option.map_eq_some_iff.mp he
    exact Bool.false_ne_true
  have hflat := OrdMap.flatMap_entries _ hothers
  rw [htok] at hflat
  rw [← foldl_receive_filter, List.filter_append, List.filter_flatMap, hflat, hacks, List.append_nil,
    foldl_receive_filter]
  split at hs'
  · cases hs'
  · cases hs'
    exact (h s hs).tickStream (hfits s hs) ht

/-- A command about the stream of `ch`. -/
theorem Sound.modify {a' : Account} (h : Sound channel a c) {ch : UInt32}
    {f : PlaybackStream r → PlaybackStream r} (hother : ch ≠ channel → a' = a)
    (hf : ch = channel → ∀ s, c.playbackStreams.get? channel = some s → Balanced a s → Balanced a' (f s)) :
    Sound channel a' ⟨c.playbackStreams.modify ch f⟩ := by
  intro s' hs'
  rw [OrdMap.get?_modify] at hs'
  by_cases hch : channel = ch
  · rw [if_pos hch, Option.map_eq_some_iff] at hs'
    obtain ⟨s, hs, rfl⟩ := hs'
    exact hf hch.symm s hs (h s hs)
  · rw [if_neg hch] at hs'
    exact hother (Ne.symm hch) ▸ h s' hs'

theorem Sound.erase (h : Sound channel a c) (ch : UInt32) :
    Sound channel a ⟨c.playbackStreams.erase ch⟩ := by
  intro s hs
  rw [OrdMap.get?_erase] at hs
  split at hs
  · cases hs
  · exact h s hs

/-! ## Commands -/

/-- A new stream, before its first request. -/
theorem balanced_newStream {params : CreateParams} {server : ServerState} {s : PlaybackStream r}
    (h : newStream params server = .ok s)
    (hfits : ∀ attr, configureBuffer (params.streamSpec server) params.bufferAttr = .ok attr →
      attr.targetLength.toNat ≤ attr.maxLength.toNat) : Balanced ⟨0, 0⟩ s := by
  obtain ⟨attr, hattr, h⟩ := Outcome.bind_eq_ok.mp h
  obtain ⟨cvolume, -, h⟩ := Outcome.bind_eq_ok.mp h
  obtain ⟨buffer, hbuffer, h⟩ := Outcome.bind_eq_ok.mp h
  cases h
  refine ⟨Nat.le_refl 0, Int.natCast_nonneg _, ?_⟩
  show buffer.lenBytes + 0 + attr.targetLength.toNat ≤ attr.maxLength.toNat
  rw [lenBytes_new hbuffer, Nat.zero_add]
  exact hfits attr hattr

theorem Sound.createPlaybackStream (h : Sound channel a c) {seq : UInt32} {params : CreateParams}
    {server : ServerState} (hfits : server.nextPlaybackChannelIndex = channel →
      ∀ attr, configureBuffer (params.streamSpec server) params.bufferAttr = .ok attr →
        attr.targetLength.toNat ≤ attr.maxLength.toNat)
    {res : ServerState × Client r × List Message}
    (hres : createPlaybackStream seq params server c = .ok res) :
    Sound channel (res.2.2.foldl (Account.receive channel) a) res.2.1 := by
  unfold Audio.createPlaybackStream at hres
  split at hres
  · cases hres
    exact h
  · obtain ⟨s, hs, hres⟩ := Outcome.bind_eq_ok.mp hres
    cases hres
    intro s' hs'
    rw [OrdMap.get?_insert] at hs'
    by_cases hch : channel = server.nextPlaybackChannelIndex
    · rw [if_pos hch] at hs'
      cases hs'
      obtain ⟨hlt, hpop⟩ := (balanced_newStream hs (hfits hch.symm)).popMissing s.isPrebuffering
      show Balanced (if server.nextPlaybackChannelIndex = channel then
        ⟨(UInt32.ofNat (popMissing s.isPrebuffering s).1).toNat, 0⟩ else a) _
      rw [if_pos hch.symm, UInt32.toNat_ofNat_of_lt' hlt]
      rwa [Account.grant, Nat.zero_add] at hpop
    · rw [if_neg hch] at hs'
      show Balanced (if server.nextPlaybackChannelIndex = channel then _ else a) _
      rw [if_neg (Ne.symm hch)]
      exact h s' hs'

/-- Where a command starts the demand of the stream over, it leaves room for the
credit. -/
def CommandFits (channel : UInt32) (a : Account) (server : ServerState) (c : Client r) :
    Command → Prop
  | .createPlaybackStream params => server.nextPlaybackChannelIndex = channel →
    ∀ attr, configureBuffer (params.streamSpec server) params.bufferAttr = .ok attr →
      attr.targetLength.toNat ≤ attr.maxLength.toNat
  | .corkPlaybackStream ch false => ch = channel → ∀ s, c.playbackStreams.get? channel = some s →
    s.state = .corked →
      a.credit + max s.bufferAttr.targetLength.toNat s.buffer.lenBytes ≤ s.bufferAttr.maxLength.toNat
  | .flushPlaybackStream ch => ch = channel → ∀ s, c.playbackStreams.get? channel = some s →
    a.credit + s.bufferAttr.targetLength.toNat ≤ s.bufferAttr.maxLength.toNat
  | .prebufPlaybackStream ch => ch = channel → ∀ s, c.playbackStreams.get? channel = some s →
    s.state = .playing →
      s.buffer.lenBytes + a.credit + s.bufferAttr.preBuffering.toNat ≤ s.bufferAttr.maxLength.toNat
  | .setPlaybackStreamBufferAttr index attr => index = channel →
    ∀ s, c.playbackStreams.get? channel = some s →
      ∀ attr', configureBuffer s.buffer.buffer.sampleSpec attr = .ok attr' →
        s.buffer.lenBytes + a.credit +
          (attr'.targetLength.toNat - (s.buffer.lenBytes + s.requested)) ≤ attr'.maxLength.toNat
  | .corkPlaybackStream _ true | .drainPlaybackStream _ | .deletePlaybackStream _
  | .triggerPlaybackStream _ => True

theorem Sound.handleCommand (h : Sound channel a c) {seq : UInt32} {cmd : Command}
    {server : ServerState} (hfits : CommandFits channel a server c cmd)
    {res : ServerState × Client r × List Message} (hres : handleCommand seq cmd server c = .ok res) :
    Sound channel (res.2.2.foldl (Account.receive channel) a) res.2.1 := by
  cases cmd with
  | createPlaybackStream params => exact h.createPlaybackStream hfits hres
  | drainPlaybackStream ch =>
    simp only [Audio.handleCommand] at hres
    split at hres
    · cases hres
      exact h.modify (fun _ => rfl) fun _ s _ hs => hs.setState _
    · cases hres
      exact h
  | corkPlaybackStream ch cork =>
    cases cork with
    | true =>
      cases hres
      exact h.modify (fun _ => rfl) fun _ s _ hs => hs.cork
    | false =>
      simp only [Audio.handleCommand] at hres
      split at hres
      · next s hs =>
        cases hres
        show Sound channel (((uncork ch s).2 ++ [Message.ack seq]).foldl _ a) _
        rw [List.foldl_append]
        refine h.modify (fun hne => ?_) fun hch s' hs' hbal => ?_
        · refine foldl_receive_of_forall (fun m hm => ?_) a
          obtain ⟨length, rfl⟩ := mem_uncork hm
          exact decide_eq_false hne
        · subst hch
          cases hs.symm.trans hs'
          exact hbal.uncork ch (hfits rfl s hs)
      · cases hres
        exact h
  | flushPlaybackStream ch =>
    cases hres
    exact h.modify (fun _ => rfl) fun hch s hs hbal => hbal.flush (hfits hch s hs)
  | deletePlaybackStream ch =>
    cases hres
    exact h.erase ch
  | triggerPlaybackStream ch =>
    cases hres
    exact h.modify (fun _ => rfl) fun _ s _ hs => hs.trigger
  | prebufPlaybackStream ch =>
    cases hres
    exact h.modify (fun _ => rfl) fun hch s hs hbal => hbal.prebuf (hfits hch s hs)
  | setPlaybackStreamBufferAttr index attr =>
    simp only [Audio.handleCommand] at hres
    split at hres
    · next s hs =>
      obtain ⟨s', hset, hres⟩ := Outcome.bind_eq_ok.mp hres
      cases hres
      refine h.modify (fun _ => rfl) fun hch t ht hbal => ?_
      subst hch
      cases hs.symm.trans ht
      obtain ⟨attr', hattr, -⟩ := Outcome.bind_eq_ok.mp hset
      exact hbal.setBufferAttr hset hattr (hfits rfl s hs attr' hattr)
    · cases hres
      exact h

/-! ## Events -/

/-- A write spends no more than the credit. -/
def EventWithin (channel : UInt32) (a : Account) : Event → Prop
  | .packet (.write ch payload) => ch = channel → a.written + payload.length ≤ a.granted
  | .packet (.command _ _) | .tick => True

/-- Where an event starts the demand of the stream over, it leaves room for the
credit. -/
def EventFits (channel : UInt32) (a : Account) (server : ServerState) (c : Client r) : Event → Prop
  | .packet (.command _ cmd) => CommandFits channel a server c cmd
  | .packet (.write _ _) => True
  | .tick => ∀ s, c.playbackStreams.get? channel = some s → UnderrunFits server.numFrames a s

theorem Sound.write (h : Sound channel a c) {ch : UInt32} {payload : List Byte}
    (hwithin : ch = channel → a.written + payload.length ≤ a.granted)
    {res : Client r × List Message} (hres : handleStreamWrite ch payload c = .ok res) :
    Sound channel (a.record channel (.packet (.write ch payload)) res.2) res.1 ∧
      (ch = channel → ∀ m ∈ res.2, m = .started ch) := by
  unfold handleStreamWrite at hres
  split at hres
  · next s hs =>
    cases hres
    by_cases hch : ch = channel
    · subst hch
      obtain ⟨hmessages, -⟩ := (h s hs).write (hwithin rfl) ch
      refine ⟨h.modify (fun hne => absurd rfl hne) fun _ t ht hbal => ?_, fun _ => hmessages⟩
      cases hs.symm.trans ht
      rw [Account.record, foldl_receive_of_forall fun m hm => by rw [hmessages m hm]; rfl,
        Account.spend, if_pos rfl]
      exact (hbal.write (hwithin rfl) ch).2
    · refine ⟨h.modify (fun _ => ?_) fun heq => absurd heq hch, fun heq => absurd heq hch⟩
      rw [Account.record, Account.spend, if_neg hch]
      refine foldl_receive_of_forall (fun m hm => ?_) a
      rcases mem_writeStream hm with rfl | ⟨n, rfl⟩ <;> rfl
  · cases hres

/-- What an event leaves of a sound client. -/
theorem perform_sound (h : Sound channel a c) {e : Event} {server : ServerState}
    (hwithin : EventWithin channel a e) (hfits : EventFits channel a server c e)
    {res : ServerState × Client r × List Message} (hres : perform e server c = .ok res) :
    Sound channel (a.record channel e res.2.2) res.2.1 ∧
      ∀ payload, e = .packet (.write channel payload) → ∀ n, .overflow n ∉ res.2.2 := by
  cases e with
  | packet p =>
    cases p with
    | command seq cmd => exact ⟨h.handleCommand hfits hres, fun payload he => by cases he⟩
    | write ch payload =>
      obtain ⟨res', hwrite, hres⟩ := Outcome.bind_eq_ok.mp hres
      cases hres
      obtain ⟨hsound, hmessages⟩ := h.write hwithin hwrite
      refine ⟨hsound, fun payload' he n hn => ?_⟩
      cases he
      cases hmessages rfl _ hn
  | tick =>
    obtain ⟨res', htick, hres⟩ := Outcome.bind_eq_ok.mp hres
    cases hres
    exact ⟨h.clockTick hfits htick, fun payload he => by cases he⟩

end Client

/-! ## Runs -/

section Run

variable {token : Nat} {channel : UInt32}

/-- The client writes no more on the channel than it was granted there. -/
def WithinCredit (token : Nat) (channel : UInt32) (w : World r) (act : Action) : Prop :=
  ∀ e ∈ eventFor token act, EventWithin channel (account channel (history token w.log)) e

/-- Where the action starts the demand of the client's stream over, it leaves
room for the credit. -/
def DemandFits (token : Nat) (channel : UInt32) (w : World r) (act : Action) : Prop :=
  ∀ e ∈ eventFor token act, ∀ c ∈ w.clients.get? token,
    EventFits channel (account channel (history token w.log)) w.server c e

structure Inv (token : Nat) (channel : UInt32) (w : World r) : Prop where
  sound : ∀ c, w.clients.get? token = some c → Sound channel (account channel (history token w.log)) c
  fits : ∀ payload messages,
    (.packet (.write channel payload), messages) ∈ history token w.log → ∀ n, .overflow n ∉ messages

theorem inv_start (captureSpec : SampleSpec) (clockRateHz : Nat) :
    Inv token channel (World.start captureSpec clockRateHz : World r) :=
  ⟨fun _ h => (nomatch h), fun _ _ h => (nomatch h)⟩

theorem inv_step {w w' : World r} {act : Action} (h : Inv token channel w)
    (hs : step w act = some w')
    (hC : WithinCredit token channel w act ∧ DemandFits token channel w act) :
    Inv token channel w' := by
  cases seen_of_step hs token with
  | idle _ hclient hlog =>
    refine ⟨fun c hc => ?_, ?_⟩
    · rw [hlog]
      exact h.sound c (hclient ▸ hc)
    · rw [hlog]
      exact h.fits
  | joined _ _ hclient hlog =>
    refine ⟨fun c hc s hs => ?_, ?_⟩
    · cases hclient.symm.trans hc
      cases hs
    · rw [hlog]
      exact h.fits
  | left _ hclient hlog =>
    refine ⟨fun c hc => ?_, ?_⟩
    · cases hclient.symm.trans hc
    · rw [hlog]
      exact h.fits
  | served hact hclient hperform hclient' hlog =>
    obtain ⟨hsound, hwrite⟩ := perform_sound (h.sound _ hclient) (hC.1 _ hact) (hC.2 _ hact _ hclient) hperform
    refine ⟨fun c hc => ?_, fun payload messages hm => ?_⟩
    · cases hclient'.symm.trans hc
      rw [hlog, account_append]
      exact hsound
    · rw [hlog, List.mem_append, List.mem_singleton] at hm
      rcases hm with hm | hm
      · exact h.fits payload messages hm
      · cases hm
        exact hwrite payload rfl

/-- In a run in which a client stays within its credit on a channel, and in which
no demand for the channel starts over without room for the credit, none of its
writes on the channel overflows. -/
theorem no_overflow {captureSpec : SampleSpec} {clockRateHz : Nat} {acts : List Action} {w : World r}
    (he : exec step (World.start captureSpec clockRateHz) acts = some w)
    (hC : EveryStep step (fun w act _ => WithinCredit token channel w act ∧ DemandFits token channel w act)
      (World.start captureSpec clockRateHz : World r) acts)
    {payload : List Byte} {messages : List Message}
    (hwrite : ⟨token, .packet (.write channel payload), messages⟩ ∈ w.log) (n : UInt32) :
    .overflow n ∉ messages :=
  (EveryStep.keeps (fun _ _ _ h hs hC => inv_step h hs hC) (inv_start captureSpec clockRateHz) hC he).fits
    payload messages (mem_history.mpr hwrite) n

end Run

/-! ## Two runs -/

/-- The create reply grants 10 bytes, and the tick after the flush 10 more. -/
def flushRun : List Action :=
  [.connect, .recv 1024 (.command 0 (.createPlaybackStream (exampleParams 10))),
    .recv 1024 (.command 1 (.flushPlaybackStream 0)), .clockTick,
    .recv 1024 (.write 0 (List.replicate 20 0))]

instance (channel : UInt32) (a : Account) : (e : Event) → Decidable (EventWithin channel a e)
  | .packet (.write ch payload) =>
    inferInstanceAs (Decidable (ch = channel → a.written + payload.length ≤ a.granted))
  | .packet (.command _ _) | .tick => .isTrue trivial

instance (token : Nat) (channel : UInt32) (w : World r) (act : Action) :
    Decidable (WithinCredit token channel w act) :=
  inferInstanceAs (Decidable (∀ e ∈ eventFor token act, EventWithin channel _ e))

/-- A client that stays within its credit, and whose write of it overflows. -/
theorem flush_overflows :
    EveryStep step (fun w act _ => WithinCredit 1024 0 w act) exampleStart flushRun ∧
    (exec step exampleStart flushRun).map (fun w => w.log.map Entry.messages) =
      some [[.createReply 0 0 0 ⟨10, 10, 10, 240⟩ 10], [.ack 1], [.request 0 10],
        [.overflow 10, .started 0]] := by
  refine ⟨by decide +kernel, by decide +kernel⟩

instance decidableForallSome {α : Type} {p : α → Prop} [DecidablePred p] (o : Option α) :
    Decidable (∀ a, o = some a → p a) := inferInstanceAs (Decidable (∀ a ∈ o, p a))

instance (numFrames : Nat) (a : Account) (s : PlaybackStream r) : Decidable (UnderrunFits numFrames a s) :=
  match h : s.buffer.drain numFrames with
  | .ok none => decidable_of_iff (s.state = .playing → 0 < s.bufferAttr.preBuffering →
      s.buffer.lenBytes + a.credit + s.bufferAttr.preBuffering.toNat ≤ s.bufferAttr.maxLength.toNat)
      (forall_congr' fun _ => forall_congr' fun _ => ⟨fun hle _ => hle, fun hle => hle h⟩)
  | .ok (some _) | .err | .panic => .isTrue fun _ _ heq => by cases h.symm.trans heq

instance (channel : UInt32) (a : Account) (server : ServerState) (c : Client r) :
    (cmd : Command) → Decidable (CommandFits channel a server c cmd)
  | .createPlaybackStream params => inferInstanceAs (Decidable (server.nextPlaybackChannelIndex = channel →
      ∀ attr, configureBuffer (params.streamSpec server) params.bufferAttr = .ok attr → _))
  | .corkPlaybackStream ch false => inferInstanceAs (Decidable (ch = channel →
      ∀ s, c.playbackStreams.get? channel = some s → s.state = .corked → _))
  | .flushPlaybackStream ch => inferInstanceAs (Decidable (ch = channel →
      ∀ s, c.playbackStreams.get? channel = some s → _))
  | .prebufPlaybackStream ch => inferInstanceAs (Decidable (ch = channel →
      ∀ s, c.playbackStreams.get? channel = some s → s.state = .playing → _))
  | .setPlaybackStreamBufferAttr index attr => inferInstanceAs (Decidable (index = channel →
      ∀ s, c.playbackStreams.get? channel = some s →
        ∀ attr', configureBuffer s.buffer.buffer.sampleSpec attr = .ok attr' → _))
  | .corkPlaybackStream _ true | .drainPlaybackStream _ | .deletePlaybackStream _ | .triggerPlaybackStream _ =>
    .isTrue trivial

instance (channel : UInt32) (a : Account) (server : ServerState) (c : Client r) :
    (e : Event) → Decidable (EventFits channel a server c e)
  | .packet (.command _ cmd) => inferInstanceAs (Decidable (CommandFits channel a server c cmd))
  | .packet (.write _ _) => .isTrue trivial
  | .tick => inferInstanceAs (Decidable (∀ s, c.playbackStreams.get? channel = some s → UnderrunFits _ a s))

instance (token : Nat) (channel : UInt32) (w : World r) (act : Action) : Decidable (DemandFits token channel w act) :=
  inferInstanceAs (Decidable (∀ e ∈ eventFor token act, ∀ c ∈ w.clients.get? token, EventFits channel _ w.server c e))

def fastStart : World exampleResampler := World.start ⟨.float32Le, 2, 48000⟩ 4800

/-- The stream plays, is flushed and runs dry, and the client writes what is requested then. -/
def refillRun : List Action :=
  [.connect, .recv 1024 (.command 0 (.createPlaybackStream (exampleParams 20))),
    .recv 1024 (.write 0 (List.replicate 20 0)), .clockTick, .recv 1024 (.command 1 (.flushPlaybackStream 0)),
    .clockTick, .recv 1024 (.write 0 (List.replicate 20 1)), .recv 1024 (.command 2 (.corkPlaybackStream 0 true)),
    .recv 1024 (.command 3 (.corkPlaybackStream 0 false)), .clockTick]

theorem refillRun_fits : EveryStep step
    (fun w act _ => WithinCredit 1024 0 w act ∧ DemandFits 1024 0 w act) fastStart refillRun := by
  decide +kernel

theorem refillRun_no_overflow : ∃ w, exec step fastStart refillRun = some w ∧
    ⟨1024, .packet (.write 0 (List.replicate 20 1)), [.started 0]⟩ ∈ w.log ∧ ∀ n, .overflow n ∉ [Message.started 0] := by
  obtain ⟨w, hw, hentry⟩ : ∃ w, exec step fastStart refillRun = some w ∧
      w.log[5]? = some ⟨1024, .packet (.write 0 (List.replicate 20 1)), [.started 0]⟩ := ⟨_, rfl, rfl⟩
  have hmem := List.mem_of_getElem? hentry
  exact ⟨w, hw, hmem, no_overflow hw refillRun_fits hmem⟩

end Moonshine.Proof.Credit
