import Moonshine.Impl.Audio.BufferLengths

/-!
# What `configure_buffer` negotiates

`limit`, `request`, `target` and `prefill` are the four lengths in terms of the
attributes, as numbers. `configureBufferChecked_eq_ok` says when no step of
`configure_buffer` loses a result, and that the lengths are these then;
`configureBuffer_of_checked` that the wrapping computation agrees.

`negotiates_iff`: the attributes come out consistent exactly if they are
`Configurable`. Two requests must fit under the maximal length, and where a clamp
or the length of 10 ms decides, that must be a whole number of frames.
-/

namespace Moonshine.Proof.BufferLengths

open Moonshine.Framework Moonshine.Impl Moonshine.Impl.Audio

/-! ## The lengths -/

/-- At most a second, or 200 ms. -/
def limit (frameSize len10ms : Nat) (maxLength : UInt32) : Nat :=
  if maxLength = u32Max then len10ms * 20
  else min (roundUp maxLength.toNat frameSize) (len10ms * 100)

/-- At least 5 ms. -/
def request (frameSize len10ms : Nat) (minimumRequestLength : UInt32) : Nat :=
  if minimumRequestLength = u32Max then roundUp (len10ms / 2) frameSize
  else max (roundUp minimumRequestLength.toNat frameSize) (len10ms / 2)

def target (len10ms limit request : Nat) (targetLength : UInt32) : Nat :=
  if targetLength = u32Max then min (roundUp (len10ms * 6) request) limit
  else max (min (max (roundUp targetLength.toNat request) (len10ms * 6)) limit) (request * 2)

def prefill (request target : Nat) (preBuffering : UInt32) : Nat :=
  if preBuffering = u32Max then target else min (roundUp preBuffering.toNat request) target

/-- What the client asks for, rounded up, is a `u32`. -/
def Rounds (unit : Nat) (length : UInt32) : Prop :=
  length ≠ u32Max → roundUp length.toNat unit < 4294967296

variable {frameSize len10ms : Nat} {length : UInt32} {v : Nat}

theorem checkedMaxLength_eq_ok (hframe : 0 < frameSize) :
    checkedMaxLength frameSize len10ms length = .ok v ↔
      Rounds frameSize length ∧ len10ms * (if length = u32Max then 20 else 100) < 4294967296 ∧
        v = limit frameSize len10ms length := by
  unfold checkedMaxLength limit Rounds
  split_ifs with hdef
  · rw [checkedMul_eq_ok]
    simp [hdef]
  · simp only [Outcome.bind_eq_ok, checkedNextMultipleOf_eq_ok, checkedMul_eq_ok, Outcome.pure_eq,
      Outcome.ok.injEq]
    constructor
    · rintro ⟨a, ⟨_, hround, rfl⟩, b, ⟨hmul, rfl⟩, rfl⟩
      exact ⟨fun _ => hround, hmul, rfl⟩
    · rintro ⟨hround, hmul, rfl⟩
      exact ⟨_, ⟨hframe, hround hdef, rfl⟩, _, ⟨hmul, rfl⟩, rfl⟩

theorem checkedMinimumRequestLength_eq_ok (hlen : len10ms / 2 + frameSize ≤ 4294967296) :
    checkedMinimumRequestLength frameSize len10ms length = .ok v ↔
      0 < frameSize ∧ Rounds frameSize length ∧ v = request frameSize len10ms length := by
  unfold checkedMinimumRequestLength request Rounds
  split_ifs with hdef
  · rw [checkedNextMultipleOf_eq_ok]
    constructor
    · rintro ⟨hframe, _, rfl⟩
      exact ⟨hframe, fun hne => absurd hdef hne, rfl⟩
    · rintro ⟨hframe, _, rfl⟩
      have := roundUp_lt hframe (len10ms / 2)
      exact ⟨hframe, by omega, rfl⟩
  · simp only [Outcome.bind_eq_ok, checkedNextMultipleOf_eq_ok, Outcome.pure_eq, Outcome.ok.injEq]
    constructor
    · rintro ⟨a, ⟨hframe, hround, rfl⟩, rfl⟩
      exact ⟨hframe, fun _ => hround, rfl⟩
    · rintro ⟨hframe, hround, rfl⟩
      exact ⟨_, ⟨hframe, hround hdef, rfl⟩, rfl⟩

variable {limit' request' target' : Nat}

theorem checkedTargetLength_eq_ok (hlen : len10ms * 6 < 4294967296) :
    checkedTargetLength len10ms limit' request' length = .ok v ↔
      0 < request' ∧
        (if length = u32Max then roundUp (len10ms * 6) request' < 4294967296
          else roundUp length.toNat request' < 4294967296 ∧ request' * 2 < 4294967296) ∧
        v = target len10ms limit' request' length := by
  unfold checkedTargetLength target
  split_ifs with hdef
  · simp only [Outcome.bind_eq_ok, checkedNextMultipleOf_eq_ok, checkedMul_eq_ok, Outcome.pure_eq,
      Outcome.ok.injEq]
    constructor
    · rintro ⟨_, ⟨_, rfl⟩, _, ⟨hpos, hround, rfl⟩, rfl⟩
      exact ⟨hpos, hround, rfl⟩
    · rintro ⟨hpos, hround, rfl⟩
      exact ⟨_, ⟨hlen, rfl⟩, _, ⟨hpos, hround, rfl⟩, rfl⟩
  · have hmax : ∀ t : Nat, (if t < request' * 2 then request' * 2 else t) = max t (request' * 2) := by
      intro t
      split <;> omega
    simp only [Outcome.bind_eq_ok, checkedNextMultipleOf_eq_ok, checkedMul_eq_ok, Outcome.pure_eq,
      Outcome.ok.injEq]
    constructor
    · rintro ⟨_, ⟨hpos, hround, rfl⟩, _, ⟨_, rfl⟩, _, ⟨htwo, rfl⟩, rfl⟩
      exact ⟨hpos, ⟨hround, htwo⟩, hmax _⟩
    · rintro ⟨hpos, ⟨hround, htwo⟩, rfl⟩
      exact ⟨_, ⟨hpos, hround, rfl⟩, _, ⟨hlen, rfl⟩, _, ⟨htwo, rfl⟩, hmax _⟩

theorem checkedPreBuffering_eq_ok (hpos : 0 < request') :
    checkedPreBuffering request' target' length = .ok v ↔
      Rounds request' length ∧ v = prefill request' target' length := by
  unfold checkedPreBuffering prefill Rounds
  split_ifs with hdef
  · simp [hdef, eq_comm]
  · simp only [Outcome.bind_eq_ok, checkedNextMultipleOf_eq_ok, Outcome.pure_eq, Outcome.ok.injEq]
    constructor
    · rintro ⟨_, ⟨_, hround, rfl⟩, rfl⟩
      exact ⟨fun _ => hround, rfl⟩
    · rintro ⟨hround, rfl⟩
      exact ⟨_, ⟨hpos, hround hdef, rfl⟩, rfl⟩

/-! ## The wrapping computation -/

theorem frameSize_lt (spec : SampleSpec) : spec.frameSize ≤ 1020 := by
  have hchannels := spec.channels.toNat_lt
  have hbytes : spec.format.bytesPerSample ≤ 4 := by
    cases spec.format <;> simp [SampleFormat.bytesPerSample]
  unfold SampleSpec.frameSize
  calc spec.channels.toNat * spec.format.bytesPerSample ≤ 255 * 4 := Nat.mul_le_mul (by omega) hbytes
    _ = 1020 := rfl

theorem ofNat_frameSize (spec : SampleSpec) : (UInt32.ofNat spec.frameSize).toNat = spec.frameSize := by
  have := frameSize_lt spec
  rw [UInt32.toNat_ofNat']
  exact Nat.mod_eq_of_lt (by omega)

theorem nextMultipleOf_of_checked {a b : UInt32} (h : checkedNextMultipleOf 32 a.toNat b.toNat = .ok v) :
    ∃ c, nextMultipleOf a b = .ok c ∧ c.toNat = v := by
  obtain ⟨hpos, hround, rfl⟩ := checkedNextMultipleOf_eq_ok.mp h
  have hb : b ≠ 0 := fun hb => by simp [hb] at hpos
  have hzero : a % b = 0 ↔ a.toNat % b.toNat = 0 := by
    rw [← UInt32.toNat_inj, UInt32.toNat_mod]
    rfl
  refine ⟨_, if_neg hb, ?_⟩
  unfold roundUp at hround ⊢
  by_cases hdvd : a % b = 0
  · rw [if_pos hdvd, if_pos (hzero.mp hdvd)]
  · rw [if_neg (mt hzero.mpr hdvd)] at hround ⊢
    have hle : a % b ≤ b := UInt32.le_iff_toNat_le.mpr (by
      rw [UInt32.toNat_mod]
      exact Nat.le_of_lt (Nat.mod_lt _ hpos))
    rw [if_neg hdvd, UInt32.toNat_add, UInt32.toNat_sub_of_le _ _ hle, UInt32.toNat_mod]
    exact Nat.mod_eq_of_lt hround

theorem mul_of_checked {a b : UInt32} (h : checkedMul 32 a.toNat b.toNat = .ok v) : (a * b).toNat = v := by
  obtain ⟨hlt, rfl⟩ := checkedMul_eq_ok.mp h
  rw [UInt32.toNat_mul]
  exact Nat.mod_eq_of_lt hlt

variable {spec : SampleSpec} {len : UInt32}

theorem configureMaxLength_of_checked (hlen : spec.len10ms = len)
    (h : checkedMaxLength spec.frameSize len.toNat length = .ok v) :
    ∃ c, configureMaxLength spec length = .ok c ∧ c.toNat = v := by
  unfold checkedMaxLength at h
  unfold configureMaxLength
  rw [hlen]
  split_ifs at h ⊢ with hdef
  · exact ⟨_, rfl, mul_of_checked h⟩
  · obtain ⟨a, ha, h⟩ := Outcome.bind_eq_ok.mp h
    obtain ⟨b, hb, h⟩ := Outcome.bind_eq_ok.mp h
    cases h
    rw [← ofNat_frameSize spec] at ha
    obtain ⟨c, hc, rfl⟩ := nextMultipleOf_of_checked ha
    refine ⟨_, Outcome.bind_eq_ok.mpr ⟨c, hc, rfl⟩, ?_⟩
    rw [UInt32.toNat_min, mul_of_checked hb]

theorem configureMinimumRequestLength_of_checked (hlen : spec.len10ms = len)
    (h : checkedMinimumRequestLength spec.frameSize len.toNat length = .ok v) :
    ∃ c, configureMinimumRequestLength spec length = .ok c ∧ c.toNat = v := by
  have hhalf : (len / 2).toNat = len.toNat / 2 := UInt32.toNat_div len 2
  unfold checkedMinimumRequestLength at h
  unfold configureMinimumRequestLength
  rw [← ofNat_frameSize spec, ← hhalf] at h
  rw [hlen]
  split_ifs at h ⊢ with hdef
  · exact nextMultipleOf_of_checked h
  · obtain ⟨a, ha, h⟩ := Outcome.bind_eq_ok.mp h
    cases h
    obtain ⟨c, hc, rfl⟩ := nextMultipleOf_of_checked ha
    exact ⟨_, Outcome.bind_eq_ok.mpr ⟨c, hc, rfl⟩, UInt32.toNat_max c (len / 2)⟩

theorem configureTargetLength_of_checked {m r : UInt32} (hlen : spec.len10ms = len)
    (h : checkedTargetLength len.toNat m.toNat r.toNat length = .ok v) :
    ∃ c, configureTargetLength spec m r length = .ok c ∧ c.toNat = v := by
  unfold checkedTargetLength at h
  unfold configureTargetLength
  rw [hlen]
  split_ifs at h ⊢ with hdef
  · obtain ⟨six, hsix, h⟩ := Outcome.bind_eq_ok.mp h
    obtain ⟨a, ha, h⟩ := Outcome.bind_eq_ok.mp h
    cases h
    rw [← mul_of_checked (b := 6) hsix] at ha
    obtain ⟨c, hc, rfl⟩ := nextMultipleOf_of_checked ha
    exact ⟨_, Outcome.bind_eq_ok.mpr ⟨c, hc, rfl⟩, UInt32.toNat_min c m⟩
  · obtain ⟨a, ha, h⟩ := Outcome.bind_eq_ok.mp h
    obtain ⟨six, hsix, h⟩ := Outcome.bind_eq_ok.mp h
    obtain ⟨least, hleast, h⟩ := Outcome.bind_eq_ok.mp h
    cases h
    obtain ⟨c, hc, rfl⟩ := nextMultipleOf_of_checked ha
    have hsix : (len * 6).toNat = six := mul_of_checked hsix
    have hleast : (r * 2).toNat = least := mul_of_checked hleast
    refine ⟨_, Outcome.bind_eq_ok.mpr ⟨c, hc, rfl⟩, ?_⟩
    rw [apply_ite UInt32.toNat, UInt32.toNat_min, UInt32.toNat_max, hsix, hleast]
    simp only [UInt32.lt_iff_toNat_lt, UInt32.toNat_min, UInt32.toNat_max, hsix, hleast]

theorem configurePreBuffering_of_checked {r t : UInt32}
    (h : checkedPreBuffering r.toNat t.toNat length = .ok v) :
    ∃ c, configurePreBuffering r t length = .ok c ∧ c.toNat = v := by
  unfold checkedPreBuffering at h
  unfold configurePreBuffering
  split_ifs at h ⊢ with hdef
  · exact ⟨t, rfl, Outcome.ok.inj h⟩
  · obtain ⟨a, ha, h⟩ := Outcome.bind_eq_ok.mp h
    cases h
    obtain ⟨c, hc, rfl⟩ := nextMultipleOf_of_checked ha
    exact ⟨_, Outcome.bind_eq_ok.mpr ⟨c, hc, rfl⟩, UInt32.toNat_min c t⟩

/-- The lengths, one after the other. -/
theorem lengths_of_checked {attr : BufferAttr} {l : Lengths} (h : configureBufferChecked spec attr = .ok l) :
    spec.bytes10ms < 2 ^ 32 ∧
      checkedMaxLength spec.frameSize spec.bytes10ms attr.maxLength = .ok l.maxLength ∧
      checkedMinimumRequestLength spec.frameSize spec.bytes10ms attr.minimumRequestLength =
        .ok l.minimumRequestLength ∧
      checkedTargetLength spec.bytes10ms l.maxLength l.minimumRequestLength attr.targetLength =
        .ok l.targetLength ∧
      checkedPreBuffering l.minimumRequestLength l.targetLength attr.preBuffering = .ok l.preBuffering := by
  obtain ⟨len, hlen, h⟩ := Outcome.bind_eq_ok.mp h
  obtain ⟨m, hm, h⟩ := Outcome.bind_eq_ok.mp h
  obtain ⟨r, hr, h⟩ := Outcome.bind_eq_ok.mp h
  obtain ⟨t, ht, h⟩ := Outcome.bind_eq_ok.mp h
  obtain ⟨p, hp, h⟩ := Outcome.bind_eq_ok.mp h
  cases h
  obtain ⟨hfits, rfl⟩ := checkedCast_eq_ok.mp hlen
  exact ⟨hfits, hm, hr, ht, hp⟩

/-- Where no result is lost, the wrapping computation has the same. -/
theorem configureBuffer_of_checked {attr : BufferAttr} {l : Lengths}
    (h : configureBufferChecked spec attr = .ok l) :
    ∃ configured, configureBuffer spec attr = .ok configured ∧ configured.lengths = l := by
  obtain ⟨m, t, p, r⟩ := l
  obtain ⟨hfits, hm, hr, ht, hp⟩ := lengths_of_checked h
  dsimp only at hm hr ht hp
  have hcast : spec.len10ms.toNat = spec.bytes10ms := by
    unfold SampleSpec.len10ms
    rw [UInt32.toNat_ofNat']
    exact Nat.mod_eq_of_lt hfits
  rw [← hcast] at hm hr ht
  obtain ⟨m, hm', rfl⟩ := configureMaxLength_of_checked rfl hm
  obtain ⟨r, hr', rfl⟩ := configureMinimumRequestLength_of_checked rfl hr
  obtain ⟨t, ht', rfl⟩ := configureTargetLength_of_checked rfl ht
  obtain ⟨p, hp', rfl⟩ := configurePreBuffering_of_checked hp
  refine ⟨⟨m, t, p, r⟩, ?_, rfl⟩
  unfold configureBuffer
  rw [hm', Outcome.ok_bind, hr', Outcome.ok_bind, ht', Outcome.ok_bind, hp', Outcome.ok_bind]
  rfl

/-! ## Where no result is lost -/

def limitOf (spec : SampleSpec) (attr : BufferAttr) : Nat := limit spec.frameSize spec.bytes10ms attr.maxLength

def requestOf (spec : SampleSpec) (attr : BufferAttr) : Nat :=
  request spec.frameSize spec.bytes10ms attr.minimumRequestLength

def targetOf (spec : SampleSpec) (attr : BufferAttr) : Nat :=
  target spec.bytes10ms (limitOf spec attr) (requestOf spec attr) attr.targetLength

def lengthsOf (spec : SampleSpec) (attr : BufferAttr) : Lengths where
  maxLength := limitOf spec attr
  targetLength := targetOf spec attr
  preBuffering := prefill (requestOf spec attr) (targetOf spec attr) attr.preBuffering
  minimumRequestLength := requestOf spec attr

structure InRange (spec : SampleSpec) (attr : BufferAttr) : Prop where
  frame : 0 < spec.frameSize
  limit_fits : spec.bytes10ms * (if attr.maxLength = u32Max then 20 else 100) < 4294967296
  max_rounds : Rounds spec.frameSize attr.maxLength
  request_rounds : Rounds spec.frameSize attr.minimumRequestLength
  request_pos : 0 < requestOf spec attr
  target_rounds : if attr.targetLength = u32Max then
      roundUp (spec.bytes10ms * 6) (requestOf spec attr) < 4294967296
    else roundUp attr.targetLength.toNat (requestOf spec attr) < 4294967296 ∧
      requestOf spec attr * 2 < 4294967296
  preBuffering_rounds : Rounds (requestOf spec attr) attr.preBuffering

variable {attr : BufferAttr} {l : Lengths}

theorem twenty_le (length : UInt32) : 20 ≤ if length = u32Max then 20 else 100 := by
  split <;> omega

/-- Twice the longest request by default fits, and six times 10 ms. -/
theorem len10ms_lt {n k : Nat} (hk : 20 ≤ k) (h : n * k < 4294967296) : n * 20 < 4294967296 :=
  Nat.lt_of_le_of_lt (Nat.mul_le_mul_left n hk) h

theorem configureBufferChecked_eq_ok :
    configureBufferChecked spec attr = .ok l ↔ InRange spec attr ∧ l = lengthsOf spec attr := by
  have hframe := frameSize_lt spec
  constructor
  · intro h
    obtain ⟨m, t, p, r⟩ := l
    obtain ⟨hfits, hm, hr, ht, hp⟩ := lengths_of_checked h
    dsimp only at hm hr ht hp
    obtain ⟨hpos, hrequest, rfl⟩ := (checkedMinimumRequestLength_eq_ok (by omega)).mp hr
    obtain ⟨hmax, hlimit, rfl⟩ := (checkedMaxLength_eq_ok hpos).mp hm
    have h20 := len10ms_lt (twenty_le _) hlimit
    obtain ⟨hrpos, htarget, rfl⟩ := (checkedTargetLength_eq_ok (by omega)).mp ht
    obtain ⟨hpre, rfl⟩ := (checkedPreBuffering_eq_ok hrpos).mp hp
    exact ⟨⟨hpos, hlimit, hmax, hrequest, hrpos, htarget, hpre⟩, rfl⟩
  · rintro ⟨h, rfl⟩
    have h20 := len10ms_lt (twenty_le _) h.limit_fits
    have hlen : checkedCast 32 spec.bytes10ms = .ok spec.bytes10ms :=
      checkedCast_eq_ok.mpr ⟨by omega, rfl⟩
    have hm := (checkedMaxLength_eq_ok h.frame).mpr ⟨h.max_rounds, h.limit_fits, rfl⟩
    have hr : checkedMinimumRequestLength spec.frameSize spec.bytes10ms attr.minimumRequestLength =
        .ok (requestOf spec attr) :=
      (checkedMinimumRequestLength_eq_ok (by omega)).mpr ⟨h.frame, h.request_rounds, rfl⟩
    have ht : checkedTargetLength spec.bytes10ms (limitOf spec attr) (requestOf spec attr)
        attr.targetLength = .ok (targetOf spec attr) :=
      (checkedTargetLength_eq_ok (by omega)).mpr ⟨h.request_pos, h.target_rounds, rfl⟩
    have hp : checkedPreBuffering (requestOf spec attr) (targetOf spec attr) attr.preBuffering =
        .ok (prefill (requestOf spec attr) (targetOf spec attr) attr.preBuffering) :=
      (checkedPreBuffering_eq_ok h.request_pos).mpr ⟨h.preBuffering_rounds, rfl⟩
    unfold configureBufferChecked
    rw [hlen, Outcome.ok_bind, hm, Outcome.ok_bind, hr, Outcome.ok_bind]
    exact Outcome.bind_eq_ok.mpr ⟨_, ht, Outcome.bind_eq_ok.mpr ⟨_, hp, rfl⟩⟩

/-! ## Consistency -/

structure Consistent (frameSize : Nat) (l : Lengths) : Prop where
  request_pos : 0 < l.minimumRequestLength
  two_requests : l.minimumRequestLength * 2 ≤ l.targetLength
  target_le : l.targetLength ≤ l.maxLength
  preBuffering_le : l.preBuffering ≤ l.targetLength
  whole_max : frameSize ∣ l.maxLength
  whole_target : frameSize ∣ l.targetLength
  whole_preBuffering : frameSize ∣ l.preBuffering
  whole_request : frameSize ∣ l.minimumRequestLength

/-- `configure_buffer` returns, loses no result on the way, and the attributes are
consistent. -/
def Negotiates (spec : SampleSpec) (attr : BufferAttr) : Prop :=
  ∃ configured, configureBuffer spec attr = .ok configured ∧
    configureBufferChecked spec attr = .ok configured.lengths ∧
    Consistent spec.frameSize configured.lengths

theorem negotiates_iff_inRange :
    Negotiates spec attr ↔ InRange spec attr ∧ Consistent spec.frameSize (lengthsOf spec attr) := by
  constructor
  · rintro ⟨configured, _, hchecked, hcons⟩
    obtain ⟨hrange, hlengths⟩ := configureBufferChecked_eq_ok.mp hchecked
    exact ⟨hrange, hlengths ▸ hcons⟩
  · rintro ⟨hrange, hcons⟩
    have hchecked := configureBufferChecked_eq_ok.mpr ⟨hrange, rfl⟩
    obtain ⟨configured, hconf, hlengths⟩ := configureBuffer_of_checked hchecked
    exact ⟨configured, hconf, hlengths ▸ hchecked, hlengths ▸ hcons⟩

/-- Two units fit under `n` rounded up if `n` is more than one. -/
theorem two_le_roundUp {n unit : Nat} (hunit : 0 < unit) : unit * 2 ≤ roundUp n unit ↔ unit < n := by
  constructor
  · intro h
    have := roundUp_lt hunit n
    omega
  · intro h
    obtain ⟨k, hk⟩ := dvd_roundUp hunit n
    have hle := le_roundUp n unit
    rw [hk] at hle ⊢
    refine Nat.mul_le_mul_left unit (Nat.succ_le_of_lt (Nat.lt_of_not_ge fun hone => ?_))
    have := Nat.mul_le_mul_left unit hone
    omega

theorem dvd_min {d a b : Nat} (ha : d ∣ a) (hb : d ∣ b) : d ∣ min a b := by
  rcases Nat.le_total a b with h | h
  · rwa [Nat.min_eq_left h]
  · rwa [Nat.min_eq_right h]

variable (hframe : 0 < frameSize)
include hframe

theorem whole_limit : frameSize ∣ limit frameSize len10ms length ↔
    if length = u32Max then frameSize ∣ len10ms * 20
    else roundUp length.toNat frameSize ≤ len10ms * 100 ∨ frameSize ∣ len10ms * 100 := by
  unfold limit
  split_ifs
  · rfl
  · rcases Nat.le_total (roundUp length.toNat frameSize) (len10ms * 100) with hle | hle
    · rw [Nat.min_eq_left hle]
      exact iff_of_true (dvd_roundUp hframe _) (.inl hle)
    · rw [Nat.min_eq_right hle]
      refine ⟨.inr, fun h => h.elim (fun hge => ?_) id⟩
      rw [← Nat.le_antisymm hge hle]
      exact dvd_roundUp hframe _

theorem whole_request : frameSize ∣ request frameSize len10ms length ↔
    (length ≠ u32Max → len10ms / 2 ≤ roundUp length.toNat frameSize ∨ frameSize ∣ len10ms / 2) := by
  unfold request
  split_ifs with hdef
  · exact iff_of_true (dvd_roundUp hframe _) fun hne => absurd hdef hne
  · rcases Nat.le_total (len10ms / 2) (roundUp length.toNat frameSize) with hle | hle
    · rw [Nat.max_eq_left hle]
      exact iff_of_true (dvd_roundUp hframe _) fun _ => .inl hle
    · rw [Nat.max_eq_right hle]
      refine ⟨fun h _ => .inr h, fun h => (h hdef).elim (fun hge => ?_) id⟩
      rw [Nat.le_antisymm hge hle]
      exact dvd_roundUp hframe _

omit hframe

theorem whole_prefill (hpos : 0 < request') (hrequest : frameSize ∣ request')
    (htarget : frameSize ∣ target') : frameSize ∣ prefill request' target' length := by
  unfold prefill
  split_ifs
  · exact htarget
  · exact dvd_min (Nat.dvd_trans hrequest (dvd_roundUp hpos _)) htarget

theorem prefill_le : prefill request' target' length ≤ target' := by
  unfold prefill
  split_ifs
  · exact Nat.le_refl _
  · exact Nat.min_le_right ..

theorem whole_target (hpos : 0 < request') (hrequest : frameSize ∣ request') (hlimit : frameSize ∣ limit')
    (htwo : request' * 2 ≤ limit') :
    request' * 2 ≤ target len10ms limit' request' length ∧
        frameSize ∣ target len10ms limit' request' length ↔
      if length = u32Max then request' < len10ms * 6
      else frameSize ∣ len10ms * 6 ∨ len10ms * 6 ≤ roundUp length.toNat request' ∨
        limit' ≤ len10ms * 6 ∨ len10ms * 6 < request' * 2 := by
  have hround : ∀ n, frameSize ∣ roundUp n request' := fun n => Nat.dvd_trans hrequest (dvd_roundUp hpos n)
  unfold target
  split_ifs with hdef
  · rw [← two_le_roundUp hpos, Nat.le_min]
    exact ⟨fun h => h.1.1, fun h => ⟨⟨h, htwo⟩, dvd_min (hround _) hlimit⟩⟩
  · rw [and_iff_right (Nat.le_max_right ..)]
    by_cases hsmall : len10ms * 6 < request' * 2
    · refine iff_of_true ?_ (.inr (.inr (.inr hsmall)))
      rcases Nat.le_total (min (max (roundUp length.toNat request') (len10ms * 6)) limit') (request' * 2)
        with hle | hle
      · rw [Nat.max_eq_right hle]
        exact Dvd.dvd.mul_right hrequest 2
      · rw [Nat.max_eq_left hle]
        refine dvd_min ?_ hlimit
        have hwins : len10ms * 6 ≤ roundUp length.toNat request' := by omega
        rw [Nat.max_eq_left hwins]
        exact hround _
    · rw [Nat.max_eq_left (by omega)]
      by_cases hasked : len10ms * 6 ≤ roundUp length.toNat request'
      · rw [Nat.max_eq_left hasked]
        exact iff_of_true (dvd_min (hround _) hlimit) (.inr (.inl hasked))
      · rw [Nat.max_eq_right (by omega)]
        by_cases hclamp : limit' ≤ len10ms * 6
        · rw [Nat.min_eq_right hclamp]
          exact iff_of_true hlimit (.inr (.inr (.inl hclamp)))
        · rw [Nat.min_eq_left (by omega)]
          exact ⟨.inl, fun h => h.elim id fun h => by omega⟩

theorem target_le (htwo : request' * 2 ≤ limit') : target len10ms limit' request' length ≤ limit' := by
  unfold target
  split_ifs
  · exact Nat.min_le_right ..
  · exact Nat.max_le.mpr ⟨Nat.min_le_right .., htwo⟩

/-- The attributes of which `configure_buffer` makes consistent ones. -/
structure Configurable (spec : SampleSpec) (attr : BufferAttr) : Prop where
  frame : 0 < spec.frameSize
  limit_fits : spec.bytes10ms * (if attr.maxLength = u32Max then 20 else 100) < 4294967296
  max_rounds : Rounds spec.frameSize attr.maxLength
  request_rounds : Rounds spec.frameSize attr.minimumRequestLength
  target_rounds : Rounds (requestOf spec attr) attr.targetLength
  preBuffering_rounds : Rounds (requestOf spec attr) attr.preBuffering
  request_pos : 0 < requestOf spec attr
  two_requests : requestOf spec attr * 2 ≤ limitOf spec attr
  whole_limit : if attr.maxLength = u32Max then spec.frameSize ∣ spec.bytes10ms * 20
    else roundUp attr.maxLength.toNat spec.frameSize ≤ spec.bytes10ms * 100 ∨
      spec.frameSize ∣ spec.bytes10ms * 100
  whole_request : attr.minimumRequestLength ≠ u32Max →
    spec.bytes10ms / 2 ≤ roundUp attr.minimumRequestLength.toNat spec.frameSize ∨
      spec.frameSize ∣ spec.bytes10ms / 2
  whole_target : if attr.targetLength = u32Max then requestOf spec attr < spec.bytes10ms * 6
    else spec.frameSize ∣ spec.bytes10ms * 6 ∨
      spec.bytes10ms * 6 ≤ roundUp attr.targetLength.toNat (requestOf spec attr) ∨
      limitOf spec attr ≤ spec.bytes10ms * 6 ∨ spec.bytes10ms * 6 < requestOf spec attr * 2

theorem Configurable.consistent (h : Configurable spec attr) :
    Consistent spec.frameSize (lengthsOf spec attr) := by
  have hlimit := (BufferLengths.whole_limit h.frame).mpr h.whole_limit
  have hrequest := (BufferLengths.whole_request h.frame).mpr h.whole_request
  have htarget := (BufferLengths.whole_target h.request_pos hrequest hlimit h.two_requests).mpr
    h.whole_target
  exact {
    request_pos := h.request_pos
    two_requests := htarget.1
    target_le := target_le h.two_requests
    preBuffering_le := prefill_le
    whole_max := hlimit
    whole_target := htarget.2
    whole_preBuffering := whole_prefill h.request_pos hrequest htarget.2
    whole_request := hrequest }

theorem Configurable.inRange (h : Configurable spec attr) : InRange spec attr := by
  refine ⟨h.frame, h.limit_fits, h.max_rounds, h.request_rounds, h.request_pos, ?_, h.preBuffering_rounds⟩
  have h20 := len10ms_lt (twenty_le _) h.limit_fits
  have htwo := h.two_requests
  have hlimit : limitOf spec attr < 4294967296 := by
    have hfits := h.limit_fits
    unfold limitOf limit
    split_ifs at hfits ⊢
    · exact hfits
    · exact Nat.lt_of_le_of_lt (Nat.min_le_right ..) hfits
  have htarget := h.whole_target
  split_ifs at htarget ⊢ with hdef
  · have := roundUp_lt h.request_pos (spec.bytes10ms * 6)
    omega
  · exact ⟨h.target_rounds hdef, by omega⟩

/-- The negotiated attributes are consistent exactly if two requests fit under the
maximal length, every rounding fits, and whatever clamps is a whole number of
frames. -/
theorem negotiates_iff (spec : SampleSpec) (attr : BufferAttr) :
    Negotiates spec attr ↔ Configurable spec attr := by
  rw [negotiates_iff_inRange]
  constructor
  · rintro ⟨hrange, hcons⟩
    have htwo : requestOf spec attr * 2 ≤ limitOf spec attr := Nat.le_trans hcons.two_requests hcons.target_le
    exact {
      frame := hrange.frame
      limit_fits := hrange.limit_fits
      max_rounds := hrange.max_rounds
      request_rounds := hrange.request_rounds
      target_rounds := fun hne => by
        have h := hrange.target_rounds
        rw [if_neg hne] at h
        exact h.1
      preBuffering_rounds := hrange.preBuffering_rounds
      request_pos := hrange.request_pos
      two_requests := htwo
      whole_limit := (whole_limit hrange.frame).mp hcons.whole_max
      whole_request := (whole_request hrange.frame).mp hcons.whole_request
      whole_target := (whole_target hrange.request_pos hcons.whole_request hcons.whole_max htwo).mp
        ⟨hcons.two_requests, hcons.whole_target⟩ }
  · exact fun h => ⟨h.inRange, h.consistent⟩

/-- A mono stream of 8-bit samples may hold ten bytes, and two requests are 480. -/
theorem shortBuffer_inconsistent :
    ¬∀ spec : SampleSpec, ∀ attr : BufferAttr, spec.format.isSupported → Negotiates spec attr := by
  intro h
  obtain ⟨configured, hconf, _, hcons⟩ := h ⟨.u8, 1, 48000⟩ ⟨10, u32Max, u32Max, u32Max⟩ rfl
  have heq : configureBuffer ⟨.u8, 1, 48000⟩ ⟨10, u32Max, u32Max, u32Max⟩ = .ok ⟨10, 10, 10, 240⟩ := by
    decide +kernel
  cases heq.symm.trans hconf
  exact absurd hcons.two_requests (by decide)

end Moonshine.Proof.BufferLengths
