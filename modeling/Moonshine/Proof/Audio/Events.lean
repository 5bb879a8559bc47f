import Moonshine.Framework.Run
import Moonshine.Impl.Audio.PulseServer

/-!
# What the server does about one client

A step of the server is for a client either nothing, or its arrival, or its
departure, or an event of its own (`Seen`), whatever the other clients do. What
holds of a client is proved about its events.
-/

namespace Moonshine.Proof.PulseServer

open Moonshine.Framework Moonshine.Impl Moonshine.Impl.Audio

variable {r : Resampler}

/-- What an action is to a client. -/
def eventFor (token : Nat) : Action → Option Event
  | .recv t p => if t = token then some (.packet p) else none
  | .clockTick => some .tick
  | .connect | .disconnect _ => none

/-- The events of a client, with what was written to it. -/
def history (token : Nat) (log : List Entry) : List (Event × List Message) :=
  log.flatMap fun e => if e.token = token then [(e.event, e.messages)] else []

theorem history_append (token : Nat) (l l' : List Entry) :
    history token (l ++ l') = history token l ++ history token l' :=
  List.flatMap_append

theorem mem_history {token : Nat} {log : List Entry} {e : Event} {messages : List Message} :
    (e, messages) ∈ history token log ↔ (⟨token, e, messages⟩ : Entry) ∈ log := by
  refine List.mem_flatMap.trans ⟨fun ⟨x, hx, h⟩ => ?_, fun h => ⟨_, h, ?_⟩⟩
  split at h
  · next ht =>
    obtain ⟨t, e', m⟩ := x
    cases List.mem_singleton.mp h
    cases ht
    exact hx
  · cases h
  · rw [if_pos rfl]
    exact List.mem_singleton_self _

/-- What a step is to the client `token`. -/
inductive Seen (token : Nat) (w : World r) (act : Action) (w' : World r) : Prop
  | idle (hact : eventFor token act = none ∨ w.clients.get? token = none)
      (hclient : w'.clients.get? token = w.clients.get? token)
      (hlog : history token w'.log = history token w.log)
  | joined (hact : act = .connect) (htoken : token = w.nextClientToken)
      (hclient : w'.clients.get? token = some ⟨OrdMap.empty⟩)
      (hlog : history token w'.log = history token w.log)
  | left (hact : act ≠ .clockTick) (hclient : w'.clients.get? token = none)
      (hlog : history token w'.log = history token w.log)
  | served {e : Event} {c c' : Client r} {server : ServerState} {messages : List Message}
      (hact : eventFor token act = some e) (hclient : w.clients.get? token = some c)
      (hperform : perform e w.server c = .ok (server, c', messages))
      (hclient' : w'.clients.get? token = some c')
      (hlog : history token w'.log = history token w.log ++ [(e, messages)])

theorem seen_clockTick {w : World r} {ticked : OrdMap Nat (ServerState × Client r × List Message)}
    (ht : w.clients.mapM (fun _ c => perform .tick w.server c) = .ok ticked) (token : Nat) :
    Seen token w .clockTick { w with
      clients := ticked.filterMap fun t => some t.2.1
      log := w.log ++ ticked.entries.map fun e => ⟨e.1, .tick, e.2.2.2⟩ } := by
  have hlog : history token (w.log ++ ticked.entries.map fun e => ⟨e.1, .tick, e.2.2.2⟩) =
      history token w.log ++ match ticked.get? token with
        | some t => [(.tick, t.2.2)]
        | none => [] := by
    rw [history_append, history, history, List.flatMap_map,
      OrdMap.flatMap_entries _ fun e _ hne => if_neg hne]
    cases ticked.get? token with
    | none => rfl
    | some t => exact congrArg _ (if_pos rfl)
  cases htok : ticked.get? token with
  | none =>
    rw [htok, List.append_nil] at hlog
    have hnone := (OrdMap.get?_mapM_eq_none ht).mp htok
    exact .idle (.inr hnone) (by rw [OrdMap.get?_filterMap, htok, hnone]; rfl) hlog
  | some t =>
    rw [htok] at hlog
    obtain ⟨c, hc, hp⟩ := (OrdMap.get?_mapM ht).mp htok
    exact .served rfl hc hp (by rw [OrdMap.get?_filterMap, htok]; rfl) hlog

/-- A step, as each client sees it. -/
theorem seen_of_step {w w' : World r} {act : Action} (hs : step w act = some w') (token : Nat) :
    Seen token w act w' := by
  cases act with
  | connect =>
    cases hs
    by_cases ht : token = w.nextClientToken
    · exact .joined rfl ht (by rw [OrdMap.get?_insert, if_pos ht]) rfl
    · exact .idle (.inl rfl) (by rw [OrdMap.get?_insert, if_neg ht]) rfl
  | disconnect t =>
    cases hs
    by_cases ht : token = t
    · exact .left nofun (by rw [OrdMap.get?_erase, if_pos ht]) rfl
    · exact .idle (.inl rfl) (by rw [OrdMap.get?_erase, if_neg ht]) rfl
  | recv t p =>
    obtain ⟨c, hc, hs⟩ := Option.bind_eq_some_iff.mp hs
    cases hp : perform (.packet p) w.server c with
    | ok res =>
      obtain ⟨server, c', messages⟩ := res
      rw [hp] at hs
      cases hs
      by_cases ht : token = t
      · subst ht
        refine .served (if_pos rfl) hc hp ?_ ?_
        · rw [OrdMap.get?_modify, if_pos rfl, hc]
          rfl
        · rw [history_append]
          simp only [history, List.flatMap_cons, List.flatMap_nil, ↓reduceIte, List.append_nil]
      · refine .idle (.inl (if_neg (Ne.symm ht))) (by rw [OrdMap.get?_modify, if_neg ht]) ?_
        rw [history_append]
        simp only [history, List.flatMap_cons, List.flatMap_nil, if_neg (Ne.symm ht), List.append_nil]
    | err =>
      rw [hp] at hs
      cases hs
      by_cases ht : token = t
      · exact .left nofun (by rw [OrdMap.get?_erase, if_pos ht]) rfl
      · exact .idle (.inl (if_neg (Ne.symm ht))) (by rw [OrdMap.get?_erase, if_neg ht]) rfl
    | panic =>
      rw [hp] at hs
      cases hs
  | clockTick =>
    cases ht : w.clients.mapM fun _ c => perform .tick w.server c with
    | ok ticked =>
      simp only [step, ht, Option.some.injEq] at hs
      exact hs ▸ seen_clockTick ht token
    | err => simp only [step, ht, reduceCtorEq] at hs
    | panic => simp only [step, ht, reduceCtorEq] at hs

theorem nextClientToken_le {w w' : World r} {act : Action} (hs : step w act = some w') :
    w.nextClientToken ≤ w'.nextClientToken := by
  cases act with
  | connect =>
    apply Option.some.inj at hs
    simp [← hs]
  | disconnect t =>
    apply Option.some.inj at hs
    simp [← hs]
  | recv t p =>
    obtain ⟨c, -, hs⟩ := Option.bind_eq_some_iff.mp hs
    cases hp : perform (.packet p) w.server c <;> rw [hp] at hs <;> simp at hs
    · simp [← hs]
    · simp [← hs]
  | clockTick =>
    cases ht : w.clients.mapM fun _ c => perform .tick w.server c <;> simp [step, ht] at hs
    simp [← hs]

/-- A token that is yet to be given out has no client and no history. -/
def Fresh (token : Nat) (w : World r) : Prop :=
  w.nextClientToken ≤ token → w.clients.get? token = none ∧ history token w.log = []

theorem fresh_start (token : Nat) (captureSpec : SampleSpec) (clockRateHz : Nat) :
    Fresh token (World.start captureSpec clockRateHz : World r) := fun _ => ⟨rfl, rfl⟩

theorem Fresh.step {token : Nat} {w w' : World r} {act : Action} (h : Fresh token w)
    (hs : step w act = some w') : Fresh token w' := by
  intro hle
  obtain ⟨hnone, hempty⟩ := h (Nat.le_trans (nextClientToken_le hs) hle)
  cases seen_of_step hs token with
  | idle _ hclient hlog => exact ⟨hclient.trans hnone, hlog.trans hempty⟩
  | joined hact htoken =>
    subst hact
    apply Option.some.inj at hs
    have hnext : w'.nextClientToken = w.nextClientToken + 1 := by simp [← hs]
    omega
  | left _ hclient hlog => exact ⟨hclient, hlog.trans hempty⟩
  | served _ hclient => exact nomatch hclient.symm.trans hnone

/-- The client is there, or is yet to come. -/
def Known (token : Nat) (w : World r) : Prop :=
  (w.clients.get? token).isSome ∨ w.nextClientToken ≤ token

/-- A client that has left does not come back. -/
theorem Known.of_step {token : Nat} {w w' : World r} {act : Action} (h : Known token w')
    (hs : step w act = some w') : Known token w := by
  cases seen_of_step hs token with
  | idle _ hclient =>
    rw [Known, hclient] at h
    exact h.imp_right (Nat.le_trans (nextClientToken_le hs))
  | joined _ htoken => exact .inr (Nat.le_of_eq htoken.symm)
  | left _ hclient =>
    rw [Known, hclient] at h
    exact h.imp nofun (Nat.le_trans (nextClientToken_le hs))
  | served _ hclient => exact .inl (by simp [hclient])

theorem Known.of_exec {token : Nat} {w w' : World r} {acts : List Action} (h : Known token w')
    (he : exec step w acts = some w') : Known token w := by
  induction acts generalizing w with
  | nil => exact Option.some.inj he ▸ h
  | cons act acts ih =>
    obtain ⟨m, hm, he⟩ := exec_cons.mp he
    exact (ih he).of_step hm

/-- A tick of the server is one of each of its clients. -/
theorem clockTick_of_step {token : Nat} {w w' : World r} {c : Client r}
    (hs : step w .clockTick = some w') (hc : w.clients.get? token = some c) :
    w'.server = w.server ∧ ∃ c' messages, clockTick w.server.numFrames c = .ok (c', messages) ∧
      w'.clients.get? token = some c' := by
  refine ⟨?_, ?_⟩
  · cases ht : w.clients.mapM fun _ c => perform .tick w.server c <;> simp [step, ht] at hs
    simp [← hs]
  · cases seen_of_step hs token with
    | idle hact => simp [eventFor, hc] at hact
    | joined hact => simp at hact
    | left hact => exact absurd rfl hact
    | served hact hclient hperform hclient' =>
      obtain rfl := Option.some.inj hact
      obtain rfl := Option.some.inj (hclient.symm.trans hc)
      obtain ⟨res, htick, hperform⟩ := Outcome.bind_eq_ok.mp hperform
      apply Outcome.ok.inj at hperform
      simp only [Prod.mk.injEq] at hperform
      exact ⟨_, _, htick, hclient'.trans (by rw [hperform.2.1])⟩

/-- A converter that is not used: the rates are equal. -/
def exampleResampler : Resampler := ⟨Unit, fun _ _ => .err, fun c => (1, c)⟩

def exampleStart : World exampleResampler := World.start ⟨.float32Le, 2, 48000⟩ 200

/-- A stream of 8-bit samples. -/
def exampleParams (maxLength : UInt32) : CreateParams where
  sampleSpec := ⟨.u8, 1, 48000⟩
  formats := []
  fixChannels := false
  startCorked := false
  bufferAttr := ⟨maxLength, u32Max, u32Max, u32Max⟩
  cvolume := none

end Moonshine.Proof.PulseServer
