import Moonshine.Framework.Run
import Moonshine.Impl.Pairing.Saves

/-!
# Concurrent saves

The insertions of the calls and their saves, in any order that the lock allows. The
text that a save writes is the data at the time of the write, because it holds the
lock for reading from before the serialisation to after the write. So the file lags
behind only as long as a call that has inserted a value has not written it (`Inv`),
and where no call fails nothing is lost on disk: `saves_complete`.
-/

namespace Moonshine.Proof.Saves

open Moonshine.Framework Moonshine.Impl.Pairing Moonshine.Impl.Pairing.Shared

theorem isIn_insertInto (call : AddCall) (d : StateData) : call.isIn (call.insertInto d) = true := by
  cases call with
  | addClient client => simp [AddCall.isIn, AddCall.insertInto]
  | addPairedCert fingerprint => simp [AddCall.isIn, AddCall.insertInto]

/-- Nothing is taken out. -/
theorem isIn_insertInto_of_isIn {call : AddCall} {d : StateData} (h : call.isIn d = true) (call' : AddCall) :
    call.isIn (call'.insertInto d) = true := by
  cases call <;> cases call' <;> simp_all [AddCall.isIn, AddCall.insertInto]

/-- The call holds the lock for writing. -/
def holdsWrite : Stage → Bool
  | .writing | .inserted _ => true
  | .called | .unlocked _ | .saving | .serialized _ | .written | .saved | .returned _ => false

def holdsRead : Stage → Bool
  | .saving | .serialized _ | .written => true
  | .called | .writing | .inserted _ | .unlocked _ | .saved | .returned _ => false

/-- The value is in memory. -/
def known : Stage → Bool
  | .called | .writing => false
  | .inserted _ | .unlocked _ | .saving | .serialized _ | .written | .saved | .returned _ => true

/-- The call has added its value, and not written it. -/
def unsaved : Stage → Bool
  | .inserted added | .unlocked added => added
  | .saving | .serialized _ => true
  | .called | .writing | .written | .saved | .returned _ => false

/-- The call has written its value. -/
def onDisk : Stage → Bool
  | .written | .saved | .returned (some true) => true
  | .called | .writing | .inserted _ | .unlocked _ | .saving | .serialized _ | .returned _ => false

theorem known_of_onDisk {s : Stage} (h : onDisk s = true) : known s = true := by
  cases s <;> simp_all [onDisk, known]

variable {ι : Type}

/-- What holds between the steps of the calls. -/
structure Inv (calls : ι → AddCall) (w : Shared ι) : Prop where
  held : w.lock.Held (holdsWrite ∘ w.stage) (holdsRead ∘ w.stage)
  /-- A text that is to be written is the data. -/
  text : ∀ t d, w.stage t = .serialized d → d = w.data
  known : ∀ t, known (w.stage t) = true → (calls t).isIn w.data = true
  /-- The file lags behind only if a write is to come. -/
  file : w.file = some w.data ∨ ∃ t, unsaved (w.stage t) = true
  onDisk : ∀ t, onDisk (w.stage t) = true → ∃ text ∈ w.file, (calls t).isIn text = true

theorem inv_start [DecidableEq ι] (calls : ι → AddCall) (data : StateData) : Inv calls (start data) where
  held := RwLock.held_free
  text _ _ h := by cases h
  known _ h := by cases h
  file := .inl rfl
  onDisk _ h := by cases h

section Step

variable [DecidableEq ι] {calls : ι → AddCall} {w w' : Shared ι} {t u : ι} {s : Stage} {lock : RwLock ι}

theorem forall_setStage {P : ι → Stage → Prop} (ht : P t s) (h : ∀ u, P u (w.stage u)) :
    ∀ u, P u (Function.update w.stage t s u) :=
  (Function.forall_update_iff w.stage P).mpr ⟨ht, fun u _ => h u⟩

/-- The call comes to another stage, and may take or leave the lock. -/
theorem Inv.setStage (h : Inv calls w)
    (hheld : lock.Held (Function.update (holdsWrite ∘ w.stage) t (holdsWrite s))
      (Function.update (holdsRead ∘ w.stage) t (holdsRead s)))
    (htext : ∀ d, s = .serialized d → d = w.data)
    (hknown : Saves.known s = true → (calls t).isIn w.data = true)
    (hunsaved : unsaved (w.stage t) = true → unsaved s = true)
    (hdisk : Saves.onDisk s = true → Saves.onDisk (w.stage t) = true) :
    Inv calls { w.setStage t s with lock } where
  held := by
    show lock.Held (holdsWrite ∘ Function.update w.stage t s) (holdsRead ∘ Function.update w.stage t s)
    rw [Function.comp_update, Function.comp_update]
    exact hheld
  text := forall_setStage (P := fun _ s => ∀ d, s = .serialized d → d = w.data) htext h.text
  known := forall_setStage (P := fun u s => Saves.known s = true → (calls u).isIn w.data = true) hknown h.known
  file := by
    refine h.file.imp_right fun ⟨u, hu⟩ => ⟨u, ?_⟩
    show unsaved (Function.update w.stage t s u) = true
    by_cases hut : u = t
    · rw [hut, Function.update_self]
      exact hunsaved (hut ▸ hu)
    · rwa [Function.update_of_ne hut]
  onDisk := forall_setStage
    (P := fun u s => Saves.onDisk s = true → ∃ text ∈ w.file, (calls u).isIn text = true)
    (fun hs => h.onDisk t (hdisk hs)) h.onDisk

theorem update_comp {f : Stage → Bool} (h : f s = f (w.stage t)) :
    Function.update (f ∘ w.stage) t (f s) = f ∘ w.stage := by
  rw [h]
  exact Function.update_eq_self t (f ∘ w.stage)

/-- The lock stays as it is. -/
theorem Inv.held_of_eq (h : Inv calls w) (hwrite : holdsWrite s = holdsWrite (w.stage t))
    (hread : holdsRead s = holdsRead (w.stage t)) :
    w.lock.Held (Function.update (holdsWrite ∘ w.stage) t (holdsWrite s))
      (Function.update (holdsRead ∘ w.stage) t (holdsRead s)) := by
  rw [update_comp hwrite, update_comp hread]
  exact h.held

/-- The value goes into memory, while no other call has the lock. -/
theorem Inv.insertValue (h : Inv calls w) (ht : w.stage t = .writing) : Inv calls (w.insertValue (calls t) t) := by
  have hheld (added : Bool) := h.held_of_eq (t := t) (s := .inserted added) (by rw [ht]; rfl) (by rw [ht]; rfl)
  unfold Shared.insertValue
  split
  · rename_i hisIn
    refine h.setStage (hheld false) (fun d hd => (by cases hd)) (fun _ => hisIn) (fun hs => ?_) (fun hs => ?_)
    · rw [ht] at hs
      cases hs
    · cases hs
  · have hwrite : (holdsWrite ∘ w.stage) t = true := congrArg holdsWrite ht
    refine ⟨?_, ?_, ?_, .inr ⟨t, ?_⟩, ?_⟩
    · show w.lock.Held (holdsWrite ∘ Function.update w.stage t _) (holdsRead ∘ Function.update w.stage t _)
      rw [Function.comp_update, Function.comp_update]
      exact hheld true
    · refine forall_setStage (P := fun _ s => ∀ d, s = .serialized d → d = (calls t).insertInto w.data)
        (fun d hd => (by cases hd)) fun u d hd => ?_
      have hread := h.held.not_read hwrite u
      rw [Function.comp_apply, hd] at hread
      cases hread
    · refine forall_setStage
        (P := fun u s => Saves.known s = true → (calls u).isIn ((calls t).insertInto w.data) = true)
        (fun _ => isIn_insertInto (calls t) w.data) fun u hu => ?_
      exact isIn_insertInto_of_isIn (h.known u hu) (calls t)
    · show unsaved (Function.update w.stage t _ t) = true
      rw [Function.update_self]
      rfl
    · exact forall_setStage
        (P := fun u s => Saves.onDisk s = true → ∃ text ∈ w.file, (calls u).isIn text = true)
        (fun hs => (by cases hs)) h.onDisk

/-- The text is the data, which has the value of every call that is past its insertion. -/
theorem Inv.write (h : Inv calls w) {text : StateData} (ht : w.stage t = .serialized text) :
    Inv calls { w.setStage t .written with file := some text } := by
  obtain rfl := h.text t text ht
  have hknown : (calls t).isIn w.data = true := h.known t (by rw [ht]; rfl)
  refine ⟨?_, ?_, ?_, .inl rfl, ?_⟩
  · show w.lock.Held (holdsWrite ∘ Function.update w.stage t _) (holdsRead ∘ Function.update w.stage t _)
    rw [Function.comp_update, Function.comp_update]
    exact h.held_of_eq (by rw [ht]; rfl) (by rw [ht]; rfl)
  · exact forall_setStage (P := fun _ s => ∀ d, s = .serialized d → d = w.data)
      (fun d hd => (by cases hd)) h.text
  · exact forall_setStage (P := fun u s => Saves.known s = true → (calls u).isIn w.data = true) (fun _ => hknown)
      h.known
  · refine forall_setStage
      (P := fun u s => Saves.onDisk s = true → ∃ text ∈ some w.data, (calls u).isIn text = true)
      (fun _ => ⟨w.data, rfl, hknown⟩) fun u hu => ?_
    exact ⟨w.data, rfl, h.known u (known_of_onDisk hu)⟩

theorem Inv.works (h : Inv calls w) (hs : w.works (calls t) t = some w') : Inv calls w' := by
  unfold Shared.works at hs
  cases ht : w.stage t with
  | called =>
    rw [ht] at hs
    obtain ⟨lock, hlock, rfl⟩ := Option.map_eq_some_iff.mp hs
    refine h.setStage ?_ (fun d hd => (by cases hd)) (fun hs => (by cases hs)) (fun hs => ?_)
      (fun hs => (by cases hs))
    · rw [update_comp (f := holdsRead) (by rw [ht]; rfl)]
      exact h.held.write hlock
    · rw [ht] at hs
      cases hs
  | writing =>
    rw [ht] at hs
    exact Option.some.inj hs ▸ h.insertValue ht
  | inserted added =>
    rw [ht] at hs
    obtain rfl := Option.some.inj hs
    refine h.setStage ?_ (fun d hd => (by cases hd)) (fun _ => h.known t (by rw [ht]; rfl)) (fun hs => ?_)
      (fun hs => (by cases hs))
    · rw [update_comp (f := holdsRead) (by rw [ht]; rfl)]
      exact h.held.unlockWrite (by rw [Function.comp_apply, ht]; rfl)
    · rwa [ht] at hs
  | unlocked added =>
    rw [ht] at hs
    have hknown : (calls t).isIn w.data = true := h.known t (by rw [ht]; rfl)
    cases added with
    | false =>
      obtain rfl := Option.some.inj hs
      refine h.setStage (h.held_of_eq (by rw [ht]; rfl) (by rw [ht]; rfl)) (fun d hd => (by cases hd))
        (fun _ => hknown) (fun hs => ?_) (fun hs => (by cases hs))
      rw [ht] at hs
      cases hs
    | true =>
      obtain ⟨lock, hlock, rfl⟩ := Option.map_eq_some_iff.mp hs
      refine h.setStage ?_ (fun d hd => (by cases hd)) (fun _ => hknown) (fun _ => rfl) (fun hs => (by cases hs))
      rw [update_comp (f := holdsWrite) (by rw [ht]; rfl)]
      exact h.held.read (by rw [Function.comp_apply, ht]; rfl) hlock
  | saving =>
    rw [ht] at hs
    obtain rfl := Option.some.inj hs
    exact h.setStage (h.held_of_eq (by rw [ht]; rfl) (by rw [ht]; rfl)) (fun d hd => (Stage.serialized.inj hd).symm)
      (fun _ => h.known t (by rw [ht]; rfl)) (fun _ => rfl) (fun hs => (by cases hs))
  | serialized text =>
    rw [ht] at hs
    exact Option.some.inj hs ▸ h.write ht
  | written =>
    rw [ht] at hs
    obtain rfl := Option.some.inj hs
    refine h.setStage ?_ (fun d hd => (by cases hd)) (fun _ => h.known t (by rw [ht]; rfl)) (fun hs => ?_)
      (fun _ => by rw [ht]; rfl)
    · rw [update_comp (f := holdsWrite) (by rw [ht]; rfl)]
      exact h.held.unlockRead t
    · rw [ht] at hs
      cases hs
  | saved =>
    rw [ht] at hs
    obtain rfl := Option.some.inj hs
    refine h.setStage (h.held_of_eq (by rw [ht]; rfl) (by rw [ht]; rfl)) (fun d hd => (by cases hd))
      (fun _ => h.known t (by rw [ht]; rfl)) (fun hs => ?_) (fun _ => by rw [ht]; rfl)
    rw [ht] at hs
    cases hs
  | returned result =>
    rw [ht] at hs
    cases hs

/-- A move leads one call, which has not returned, to another stage. -/
theorem stage_of_works (hs : w.works (calls t) t = some w') :
    (∃ s, w'.stage = Function.update w.stage t s) ∧ ∀ result, w.stage t ≠ .returned result := by
  unfold Shared.works at hs
  split at hs
  · rename_i ht
    obtain ⟨lock, -, rfl⟩ := Option.map_eq_some_iff.mp hs
    exact ⟨⟨_, rfl⟩, by simp [ht]⟩
  · rename_i ht
    obtain rfl := Option.some.inj hs
    refine ⟨?_, by simp [ht]⟩
    unfold Shared.insertValue
    split
    · exact ⟨_, rfl⟩
    · exact ⟨_, rfl⟩
  · rename_i ht
    obtain rfl := Option.some.inj hs
    exact ⟨⟨_, rfl⟩, by simp [ht]⟩
  · rename_i ht
    obtain rfl := Option.some.inj hs
    exact ⟨⟨_, rfl⟩, by simp [ht]⟩
  · rename_i ht
    obtain ⟨lock, -, rfl⟩ := Option.map_eq_some_iff.mp hs
    exact ⟨⟨_, rfl⟩, by simp [ht]⟩
  · rename_i ht
    obtain rfl := Option.some.inj hs
    exact ⟨⟨_, rfl⟩, by simp [ht]⟩
  · rename_i ht
    obtain rfl := Option.some.inj hs
    exact ⟨⟨_, rfl⟩, by simp [ht]⟩
  · rename_i ht
    obtain rfl := Option.some.inj hs
    exact ⟨⟨_, rfl⟩, by simp [ht]⟩
  · rename_i ht
    obtain rfl := Option.some.inj hs
    exact ⟨⟨_, rfl⟩, by simp [ht]⟩
  · cases hs

theorem stage_of_fails {truncated : Bool} (hs : w.fails truncated t = some w') :
    w'.stage = Function.update w.stage t (.returned none) ∧ ∀ result, w.stage t ≠ .returned result := by
  unfold Shared.fails at hs
  split at hs
  · rename_i ht
    exact ⟨Option.some.inj hs ▸ rfl, by simp [ht]⟩
  · rename_i ht
    exact ⟨Option.some.inj hs ▸ rfl, by simp [ht]⟩
  · cases hs

end Step

section Run

variable [DecidableEq ι] {calls : ι → AddCall} {w w' : Shared ι} {t : ι} {moves : List (ι × Move)}

/-- An error is returned once and for all. -/
theorem failed_of_step (u : ι × Move) (hs : step calls w u = some w') (h : w.stage t = .returned none) :
    w'.stage t = .returned none := by
  obtain ⟨u, m⟩ := u
  cases m with
  | works =>
    obtain ⟨⟨s, hstage⟩, hreturned⟩ := stage_of_works hs
    rw [hstage, Function.update_of_ne (ne_of_apply_ne w.stage fun heq => hreturned none (heq ▸ h)), h]
  | fails truncated =>
    obtain ⟨hstage, -⟩ := stage_of_fails hs
    rw [hstage, Function.update_apply]
    split
    · rfl
    · exact h

theorem failed_of_exec (he : exec (step calls) w moves = some w') (h : w.stage t = .returned none) :
    w'.stage t = .returned none :=
  exec_inv (fun _ u _ h hs => failed_of_step u hs h) h he

/-- Where no call has returned an error, no step has failed. -/
theorem works_of_exec (he : exec (step calls) w moves = some w') (hok : ∀ t, w'.stage t ≠ .returned none) :
    ∀ m ∈ moves, m.2 = .works := by
  induction moves generalizing w with
  | nil => exact fun m hm => absurd hm List.not_mem_nil
  | cons m moves ih =>
    obtain ⟨w₁, hs, he⟩ := exec_cons.mp he
    refine List.forall_mem_cons.mpr ⟨?_, ih he⟩
    cases hm : m.2 with
    | works => rfl
    | fails truncated =>
      have hfails : w.fails truncated m.1 = some w₁ := by
        rw [← hs, show m = (m.1, .fails truncated) from Prod.ext rfl hm]
        rfl
      have hreturned : w₁.stage m.1 = .returned none := by
        rw [(stage_of_fails hfails).1, Function.update_self]
      exact absurd (failed_of_exec he hreturned) (hok m.1)

end Run

/-- Whatever the order of the steps of any calls, if all return without an error the file
is what is in memory, and has the value of every call; and it has had the value that a
call added since that call returned. -/
theorem saves_complete [DecidableEq ι] (calls : ι → AddCall) (data : StateData) {moves : List (ι × Move)}
    {w : Shared ι} (he : exec (step calls) (start data) moves = some w)
    (hok : ∀ t, ∃ added, w.stage t = .returned (some added)) :
    w.file = some w.data ∧ (∀ t, (calls t).isIn w.data = true) ∧
      EveryStep (step calls) (fun _ _ w' => ∀ t, w'.stage t = .returned (some true) →
        ∃ text ∈ w'.file, (calls t).isIn text = true) (start data) moves := by
  have hworks : ∀ m ∈ moves, m.2 = .works := works_of_exec he fun t hfailed => by
    obtain ⟨added, hreturned⟩ := hok t
    rw [hfailed] at hreturned
    cases hreturned
  have hrun : EveryStep (step calls) (fun _ m _ => m.2 = .works) (start data) moves :=
    everyStep_of_forall hworks (start data)
  have hkeep : ∀ w m w', Inv calls w → step calls w m = some w' → m.2 = .works → Inv calls w' := by
    rintro w ⟨t, m⟩ w' h hs rfl
    exact h.works hs
  have hinv : Inv calls w := hrun.keeps hkeep (inv_start calls data) he
  refine ⟨?_, fun t => ?_, ?_⟩
  · rcases hinv.file with hfile | ⟨t, hunsaved⟩
    · exact hfile
    · obtain ⟨added, hreturned⟩ := hok t
      rw [hreturned] at hunsaved
      cases hunsaved
  · obtain ⟨added, hreturned⟩ := hok t
    exact hinv.known t (by rw [hreturned]; rfl)
  · refine hrun.of_keeps hkeep (fun w m w' h hs hm t hreturned => ?_) (inv_start calls data)
    exact (hkeep w m w' h hs hm).onDisk t (by rw [hreturned]; rfl)

/-- The second call inserts its value before the first one saves, and both save at the
same time; the first one writes last. -/
def twoCalls : Bool → AddCall
  | false => .addClient "a"
  | true => .addPairedCert "b"

def twoSaves : List (Bool × Move) :=
  [false, false, false, true, true, true, false, true, false, true, true, true, true, false,
    false, false].map fun t => (t, .works)

theorem twoSaves_complete : ∃ w, exec (step twoCalls) (start ⟨∅, ∅⟩) twoSaves = some w ∧
    w.file = some w.data ∧ ∀ t, (twoCalls t).isIn w.data = true := by
  have hrun : ∃ w, exec (step twoCalls) (start ⟨∅, ∅⟩) twoSaves = some w ∧
      ∀ t, w.stage t = .returned (some true) := ⟨_, rfl, fun t => by cases t <;> rfl⟩
  obtain ⟨w, he, hreturned⟩ := hrun
  obtain ⟨hfile, hdata, -⟩ := saves_complete twoCalls ⟨∅, ∅⟩ he fun t => ⟨true, hreturned t⟩
  exact ⟨w, he, hfile, hdata⟩

end Moonshine.Proof.Saves
