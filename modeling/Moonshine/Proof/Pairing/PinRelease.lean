import Moonshine.Impl.Pairing.Requests
import Moonshine.Proof.Pairing.Records

/-!
# Whether a PIN releases the request that waits for it

A PIN that is registered before the request of its record has called
`notified()` finds no one to release, and the request then waits for a
notification that has already been given. A run releases all its requests
exactly if no PIN comes that early (`pinReleases_iff`).
-/

namespace Moonshine.Proof.Webserver

open Moonshine.Framework Moonshine.Impl Moonshine.Impl.Pairing Moonshine.Impl.Webserver
open Moonshine.Proof.Pairing

variable {x : Crates}

/-- Whether the current record of an id has a PIN, if there is a record. -/
def keyed (w : Webserver.World x) (id : String) : Option Bool :=
  (w.manager.pendingClients.get? id).map fun c => c.key.isSome

/-- The client has gone, or the server shut down. -/
def Gone (w : Webserver.World x) (r : RequestId) : Prop :=
  w.handlers r = .dropped ∨
    (w.shutdownTriggered ∧ w.handlers r = .answered (.badRequest "Server is shutting down."))

/-- Running on by itself, the request comes to its answer. -/
def Answers (w : Webserver.World x) (r : RequestId) : Prop :=
  ∃ n w', exec Webserver.step w (List.replicate n (.advance r)) = some w' ∧
    w'.handlers r = .answered (.plaincert w.serverCerts)

/-- Where the current record of an id has a PIN, the request that stored the
record answers. -/
def PinReleases (w : Webserver.World x) : Prop :=
  ∀ id r, keyed w id = some true → w.pinNotify id = some r → Gone w r ∨ Answers w r

/-- A PIN comes after the request of its record has called `notified()`. -/
def WaitsFirst (w : Webserver.World x) (a : Webserver.Action x) : Prop :=
  ∀ id pin r, a = .request id (.registerPin pin) → w.pinNotify id = some r → w.handlers r ≠ .started

/-- The moves of a request after it has stored its record. -/
inductive Moved (w : Webserver.World x) : Handler x → Handler x → Prop
  | waits : Moved w .started .waiting
  | answered : Moved w .notified (.answered (.plaincert w.serverCerts))
  | aborted {h : Handler x} (hselect : h.inSelect) (hshutdown : w.shutdownTriggered) :
    Moved w h (.answered (.badRequest "Server is shutting down."))
  | dropped {h : Handler x} (hselect : h.inSelect) : Moved w h .dropped

/-- What a step does to the records and to the requests. -/
inductive Effect (w : Webserver.World x) (a : Webserver.Action x) (w' : Webserver.World x) : Prop
  | started (r : RequestId) (id : String) (hidle : (w.handlers r).isIdle)
      (hkeyed : keyed w' = Function.update (keyed w) id (some false))
      (hnotify : w'.pinNotify = Function.update w.pinNotify id (some r))
      (hhandlers : w'.handlers = Function.update w.handlers r .started)
  | moved (r : RequestId) (h : Handler x) (hmoved : Moved w (w.handlers r) h)
      (hkeyed : keyed w' = keyed w) (hnotify : w'.pinNotify = w.pinNotify)
      (hhandlers : w'.handlers = Function.update w.handlers r h)
  | pinned (id : String) (pin : List Byte) (ha : a = .request id (.registerPin pin))
      (hkeyed : keyed w' = Function.update (keyed w) id ((keyed w id).map fun _ => true))
      (hnotify : w'.pinNotify = w.pinNotify) (hhandlers : w'.handlers = notifyWaiters w.handlers (w.pinNotify id))
  | other (hkeyed : keyed w' = keyed w) (hnotify : w'.pinNotify = w.pinNotify)
      (hhandlers : w'.handlers = w.handlers)

/-- Only `register_pin` sets the key of a record. -/
theorem key_of_served {certPem : x.Pem} {c c' : PendingClient x} {request : Request}
    (h : Served certPem c request c') (hrequest : ∀ pin, request ≠ .registerPin pin) : c'.key = c.key := by
  cases h with
  | registered pin => exact absurd rfl (hrequest pin)
  | failed => rfl
  | generated => rfl
  | refused => rfl
  | stored => rfl

theorem keyed_request (w : Webserver.World x) (id : String) {request : Request}
    (hrequest : ∀ pin, request ≠ .registerPin pin) :
    keyed { w with manager := (ClientManager.serve id request w.manager).2 } = keyed w := by
  funext id'
  rw [keyed, get?_serve, keyed]
  split
  · rw [Option.map_map]
    refine Option.map_congr fun c _ => ?_
    show (Request.serve _ _ request c).2.key.isSome = c.key.isSome
    rw [key_of_served (serve_served c request) hrequest]
  · rfl

theorem keyed_registerPin (w : Webserver.World x) (id : String) (pin : List Byte) :
    keyed { w with manager := (ClientManager.registerPin id pin w.manager).2 } =
      Function.update (keyed w) id ((keyed w id).map fun _ => true) := by
  funext id'
  rw [keyed, ClientManager.registerPin, get?_serve]
  by_cases hid : id' = id
  · rw [if_pos hid, hid, Function.update_self, keyed, Option.map_map, Option.map_map]
    rfl
  · rw [if_neg hid, Function.update_of_ne hid]
    rfl

theorem keyed_startPairing (w : Webserver.World x) (id : String) (pem : x.Pem) (salt : List Byte) :
    keyed { w with manager := (perform (.startPairing id pem salt) w.manager).2 } =
      Function.update (keyed w) id (some false) := by
  funext id'
  show ((w.manager.pendingClients.insert id (PendingClient.new id pem salt)).get? id').map _ = _
  rw [OrdMap.get?_insert]
  by_cases hid : id' = id
  · rw [if_pos hid, hid, Function.update_self]
    rfl
  · rw [if_neg hid, Function.update_of_ne hid]
    rfl

theorem pendingClients_check (m : ClientManager x) (id : String) (clientSecret : List Byte)
    (certSave clientSave : SaveResult) :
    (perform (.checkClientPairingSecret id clientSecret certSave clientSave) m).2.pendingClients =
      m.pendingClients := by
  rcases check_persisted m id clientSecret certSave clientSave with ⟨-, h⟩ | ⟨c, -, -, h⟩
  · exact congrArg _ h
  · have hpending := congrArg ClientManager.pendingClients h.others
    exact hpending

/-- The certificate stays, and a shutdown is not taken back. -/
def Kept (w w' : Webserver.World x) : Prop :=
  w'.serverCerts = w.serverCerts ∧ (w.shutdownTriggered → w'.shutdownTriggered)

theorem effect_of_step {w w' : Webserver.World x} {a : Webserver.Action x}
    (h : Webserver.step w a = some w') : Kept w w' ∧ Effect w a w' := by
  match a with
  | .getServerCert r id pem salt =>
    simp only [Webserver.step] at h
    split at h <;> cases h
    next hidle => exact ⟨⟨rfl, fun h => h⟩, .started r _ hidle (keyed_startPairing w _ pem salt) rfl rfl⟩
  | .advance r =>
    simp only [Webserver.step, Webserver.advance] at h
    split at h <;> cases h
    next hr => exact ⟨⟨rfl, id⟩, .moved r _ (hr ▸ .waits) rfl rfl rfl⟩
    next hr => exact ⟨⟨rfl, id⟩, .moved r _ (hr ▸ .answered) rfl rfl rfl⟩
  | .abort r =>
    simp only [Webserver.step] at h
    split at h <;> cases h
    next hr => exact ⟨⟨rfl, id⟩, .moved r _ (.aborted hr.1 hr.2) rfl rfl rfl⟩
  | .drop r =>
    simp only [Webserver.step] at h
    split at h <;> cases h
    next hr => exact ⟨⟨rfl, id⟩, .moved r _ (.dropped hr) rfl rfl rfl⟩
  | .request id (.registerPin pin) =>
    cases h
    exact ⟨⟨rfl, fun h => h⟩, .pinned id pin rfl (keyed_registerPin w id pin) rfl rfl⟩
  | .request id (.clientChallenge data secret challenge) =>
    cases h
    exact ⟨⟨rfl, fun h => h⟩, .other (keyed_request w id nofun) rfl rfl⟩
  | .request id (.serverChallengeResponse response) =>
    cases h
    exact ⟨⟨rfl, fun h => h⟩, .other (keyed_request w id nofun) rfl rfl⟩
  | .checkClientPairingSecret id clientSecret certSave clientSave =>
    cases h
    refine ⟨⟨rfl, fun h => h⟩, .other ?_ rfl rfl⟩
    funext id'
    show ((perform _ w.manager).2.pendingClients.get? id').map _ = _
    rw [pendingClients_check, keyed]
  | .triggerShutdown =>
    cases h
    exact ⟨⟨rfl, fun _ => rfl⟩, .other rfl rfl rfl⟩

/-- A notification releases the request it finds waiting. -/
theorem notifyWaiters_eq (handlers : RequestId → Handler x) (o : Option RequestId) (r : RequestId) :
    notifyWaiters handlers o r =
      if o = some r ∧ (handlers r).isWaiting then .notified else handlers r := by
  match o with
  | none => exact (if_neg (by simp)).symm
  | some r' =>
    rw [notifyWaiters]
    by_cases h : r' = r
    · subst h
      by_cases hr : (handlers r').isWaiting
      · rw [if_pos hr, if_pos ⟨rfl, hr⟩, Function.update_self]
      · rw [if_neg hr, if_neg (fun ho => hr ho.2)]
    · rw [if_neg (show ¬ (some r' = some r ∧ _) from fun ho => h (Option.some.inj ho.1))]
      split
      · exact Function.update_of_ne (Ne.symm h) ..
      · rfl

/-- A request that has been released, or has ended. -/
def Released : Handler x → Prop
  | .notified | .answered _ | .dropped => True
  | .idle | .started | .waiting => False

theorem Moved.released {w : Webserver.World x} {h h' : Handler x} (hm : Moved w h h') (hr : Released h) :
    Released h' := by
  cases hm with
  | waits => exact hr.elim
  | answered => trivial
  | aborted => trivial
  | dropped => trivial

theorem Moved.begun {w : Webserver.World x} {h h' : Handler x} (hm : Moved w h h') : ¬ h'.isIdle := by
  cases hm <;> simp [Handler.isIdle]

structure Inv (w : Webserver.World x) : Prop where
  recorded : ∀ id r, w.pinNotify id = some r → (keyed w id).isSome
  begun : ∀ id r, w.pinNotify id = some r → ¬ (w.handlers r).isIdle
  replies : ∀ r reply, w.handlers r = .answered reply → reply = .plaincert w.serverCerts ∨
    (w.shutdownTriggered ∧ reply = .badRequest "Server is shutting down.")
  released : ∀ id r, keyed w id = some true → w.pinNotify id = some r → Released (w.handlers r)

theorem Inv.start (m : ClientManager x) (pem : x.Pem) : Inv (Webserver.World.start m pem) where
  recorded := nofun
  begun := nofun
  replies := nofun
  released := nofun

/-- What has been answered stays a valid answer. -/
theorem Inv.replies_kept {w w' : Webserver.World x} (h : Inv w) (hk : Kept w w') {r : RequestId}
    {reply : Reply x} (hr : w.handlers r = .answered reply) : reply = .plaincert w'.serverCerts ∨
      (w'.shutdownTriggered ∧ reply = .badRequest "Server is shutting down.") := by
  rw [hk.1]
  exact (h.replies r reply hr).imp id fun hb => ⟨hk.2 hb.1, hb.2⟩

theorem Inv.of_started {w w' : Webserver.World x} (h : Inv w) (hk : Kept w w') {r : RequestId}
    {id : String} (hidle : (w.handlers r).isIdle)
    (hkeyed : keyed w' = Function.update (keyed w) id (some false))
    (hnotify : w'.pinNotify = Function.update w.pinNotify id (some r))
    (hhandlers : w'.handlers = Function.update w.handlers r .started) : Inv w' := by
  -- The requests of the other records have begun, so they are others.
  have hother : ∀ id' r', id' ≠ id → w'.pinNotify id' = some r' →
      w.pinNotify id' = some r' ∧ w'.handlers r' = w.handlers r' := fun id' r' hid hr => by
    rw [hnotify, Function.update_of_ne hid] at hr
    have hne : r' ≠ r := fun he => h.begun id' r' hr (he ▸ hidle)
    exact ⟨hr, by rw [hhandlers, Function.update_of_ne hne]⟩
  refine ⟨fun id' r' hr => ?_, fun id' r' hr => ?_, fun r' reply hr => ?_, fun id' r' hpin hr => ?_⟩
  · by_cases hid : id' = id
    · rw [hkeyed, hid, Function.update_self]
      rfl
    · rw [hkeyed, Function.update_of_ne hid]
      exact h.recorded id' r' (hother id' r' hid hr).1
  · by_cases hid : id' = id
    · rw [hnotify, hid, Function.update_self, Option.some.injEq] at hr
      rw [← hr, hhandlers, Function.update_self]
      simp [Handler.isIdle]
    · obtain ⟨hr, heq⟩ := hother id' r' hid hr
      rw [heq]
      exact h.begun id' r' hr
  · by_cases hne : r' = r
    · rw [hhandlers, hne, Function.update_self] at hr
      simp at hr
    · rw [hhandlers, Function.update_of_ne hne] at hr
      exact h.replies_kept hk hr
  · by_cases hid : id' = id
    · rw [hkeyed, hid, Function.update_self] at hpin
      simp at hpin
    · rw [hkeyed, Function.update_of_ne hid] at hpin
      obtain ⟨hr, heq⟩ := hother id' r' hid hr
      rw [heq]
      exact h.released id' r' hpin hr

theorem Inv.of_moved {w w' : Webserver.World x} (h : Inv w) (hk : Kept w w') {r : RequestId}
    {hr' : Handler x} (hmoved : Moved w (w.handlers r) hr') (hkeyed : keyed w' = keyed w)
    (hnotify : w'.pinNotify = w.pinNotify) (hhandlers : w'.handlers = Function.update w.handlers r hr') :
    Inv w' := by
  have hat : ∀ r', r' ≠ r → w'.handlers r' = w.handlers r' := fun r' hne => by
    rw [hhandlers, Function.update_of_ne hne]
  have hself : w'.handlers r = hr' := by rw [hhandlers, Function.update_self]
  refine ⟨by rw [hkeyed, hnotify]; exact h.recorded, fun id r' hr => ?_, fun r' reply hr => ?_,
    fun id r' hpin hr => ?_⟩
  · rw [hnotify] at hr
    by_cases hne : r' = r
    · rw [hne, hself]
      exact hmoved.begun
    · rw [hat r' hne]
      exact h.begun id r' hr
  · by_cases hne : r' = r
    · rw [hne, hself] at hr
      rw [hr] at hmoved
      generalize w.handlers r = before at hmoved
      cases hmoved with
      | answered => exact .inl (by rw [hk.1])
      | aborted hselect hshutdown => exact .inr ⟨hk.2 hshutdown, rfl⟩
    · rw [hat r' hne] at hr
      exact h.replies_kept hk hr
  · rw [hkeyed] at hpin
    rw [hnotify] at hr
    have hrel := h.released id r' hpin hr
    by_cases hne : r' = r
    · rw [hne, hself]
      exact hmoved.released (hne ▸ hrel)
    · rwa [hat r' hne]

theorem Inv.of_pinned {w w' : Webserver.World x} (h : Inv w) (hk : Kept w w') {id : String}
    (hwaits : ∀ r, w.pinNotify id = some r → w.handlers r ≠ .started)
    (hkeyed : keyed w' = Function.update (keyed w) id ((keyed w id).map fun _ => true))
    (hnotify : w'.pinNotify = w.pinNotify)
    (hhandlers : w'.handlers = notifyWaiters w.handlers (w.pinNotify id)) : Inv w' := by
  refine ⟨fun id' r hr => ?_, fun id' r hr => ?_, fun r reply hr => ?_, fun id' r hpin hr => ?_⟩
  · rw [hnotify] at hr
    have hsome := h.recorded id' r hr
    by_cases hid : id' = id
    · rw [hkeyed, hid, Function.update_self, Option.isSome_map]
      exact hid ▸ hsome
    · rwa [hkeyed, Function.update_of_ne hid]
  · rw [hnotify] at hr
    rw [hhandlers, notifyWaiters_eq]
    split
    · simp [Handler.isIdle]
    · exact h.begun id' r hr
  · rw [hhandlers, notifyWaiters_eq] at hr
    split at hr
    · simp at hr
    · exact h.replies_kept hk hr
  · rw [hnotify] at hr
    rw [hhandlers, notifyWaiters_eq]
    split
    next => trivial
    next hnot =>
      by_cases hid : id' = id
      · -- The request of the record: it has begun, and neither is at its start nor waits.
        subst hid
        have hbegun := h.begun id' r hr
        have hstarted := hwaits r hr
        have hwaiting : ¬ (w.handlers r).isWaiting := fun hw => hnot ⟨hr, hw⟩
        cases hh : w.handlers r with
        | idle => exact absurd rfl (hh ▸ hbegun)
        | started => exact absurd hh hstarted
        | waiting => exact absurd rfl (hh ▸ hwaiting)
        | notified => trivial
        | answered reply => trivial
        | dropped => trivial
      · rw [hkeyed, Function.update_of_ne hid] at hpin
        exact h.released id' r hpin hr

theorem Inv.step {w w' : Webserver.World x} {a : Webserver.Action x} (h : Inv w)
    (hs : Webserver.step w a = some w') (hwaits : WaitsFirst w a) : Inv w' := by
  obtain ⟨hk, heffect⟩ := effect_of_step hs
  cases heffect with
  | started r id hidle hkeyed hnotify hhandlers => exact h.of_started hk hidle hkeyed hnotify hhandlers
  | moved r hr hmoved hkeyed hnotify hhandlers => exact h.of_moved hk hmoved hkeyed hnotify hhandlers
  | pinned id pin ha hkeyed hnotify hhandlers =>
    exact h.of_pinned hk (fun r hr => hwaits id pin r ha hr) hkeyed hnotify hhandlers
  | other hkeyed hnotify hhandlers =>
    refine ⟨by rw [hkeyed, hnotify]; exact h.recorded, by rw [hnotify, hhandlers]; exact h.begun,
      fun r reply hr => ?_, by rw [hkeyed, hnotify, hhandlers]; exact h.released⟩
    rw [hhandlers] at hr
    exact h.replies_kept hk hr

theorem Inv.pinReleases {w : Webserver.World x} (h : Inv w) : PinReleases w := by
  intro id r hpin hr
  have hrel := h.released id r hpin hr
  cases hh : w.handlers r with
  | idle => exact (hh ▸ hrel).elim
  | started => exact (hh ▸ hrel).elim
  | waiting => exact (hh ▸ hrel).elim
  | notified =>
    refine .inr ⟨1, w.setHandler r (.answered (.plaincert w.serverCerts)), ?_, Function.update_self ..⟩
    show (advance w r).bind some = _
    rw [advance, hh]
    rfl
  | answered reply =>
    rcases h.replies r reply hh with rfl | ⟨hshutdown, rfl⟩
    · exact .inr ⟨0, w, rfl, hh⟩
    · exact .inl (.inr ⟨hshutdown, hh⟩)
  | dropped => exact .inl (.inl hh)

/-- Without a notification, a request that has not been released never is. -/
theorem unreleased_exec {w w' : Webserver.World x} {r : RequestId} {n : Nat}
    (h : w.handlers r = .started ∨ w.handlers r = .waiting)
    (he : exec Webserver.step w (List.replicate n (.advance r)) = some w') :
    w'.handlers r = .started ∨ w'.handlers r = .waiting := by
  induction n generalizing w with
  | zero => rwa [← Option.some.inj he]
  | succ n ih =>
    obtain ⟨m, hm, he⟩ := exec_cons.mp he
    refine ih ?_ he
    have hm' : advance w r = some m := hm
    rcases h with h | h
    · rw [advance, h] at hm'
      cases hm'
      exact .inr (Function.update_self ..)
    · rw [advance, h] at hm'
      cases hm'

/-- A PIN that comes before its request waits leaves the request behind. -/
theorem not_releases_of_early {w w' : Webserver.World x} {id : String} {pin : List Byte} {r : RequestId}
    (hrecord : (keyed w id).isSome) (hnotify : w.pinNotify id = some r) (hr : w.handlers r = .started)
    (hs : Webserver.step w (.request id (.registerPin pin)) = some w') : ¬ PinReleases w' := by
  cases hs
  have hr' : notifyWaiters w.handlers (w.pinNotify id) r = .started := by
    rw [notifyWaiters_eq, hr, if_neg (by simp [Handler.isWaiting])]
  have hpin : keyed { w with manager := (ClientManager.registerPin id pin w.manager).2 } id = some true := by
    obtain ⟨b, hb⟩ := Option.isSome_iff_exists.mp hrecord
    rw [keyed_registerPin, Function.update_self, hb]
    rfl
  intro h
  rcases h id r hpin hnotify with (hdropped | ⟨-, haborted⟩) | ⟨n, m, he, hm⟩
  · exact absurd (hr'.symm.trans hdropped) (by simp)
  · exact absurd (hr'.symm.trans haborted) (by simp)
  · rcases unreleased_exec (.inl hr') he with hstuck | hstuck
    · exact absurd (hstuck.symm.trans hm) (by simp)
    · exact absurd (hstuck.symm.trans hm) (by simp)

/-- In every run of the requests of any clients: every PIN releases the request
of its record, in every state that is reached, exactly if every PIN comes after
the request of its record has called `notified()`. -/
theorem pinReleases_iff (m : ClientManager x) (pem : x.Pem) (as : List (Webserver.Action x)) :
    EveryStep Webserver.step (fun _ _ w' => PinReleases w') (Webserver.World.start m pem) as ↔
      EveryStep Webserver.step (fun w a _ => WaitsFirst w a) (Webserver.World.start m pem) as := by
  refine EveryStep.iff_of_inv (fun w a w' h hs => ?_) (fun w a w' h hs hw => h.step hs hw)
    (Inv.start m pem) as
  constructor
  · rintro hreleases id pin r rfl hr hstarted
    exact not_releases_of_early (h.recorded id r hr) hr hstarted hs hreleases
  · exact fun hw => (h.step hs hw).pinReleases

/-- The PIN of a request that has just stored its record. -/
def earlyPin : List (Webserver.Action exampleCrates) :=
  [.getServerCert 0 "a" .clientCert exampleSalt, .request "a" (.registerPin examplePin)]

theorem early_pin_missed : ¬ ∀ as : List (Webserver.Action exampleCrates),
    EveryStep Webserver.step (fun _ _ w' => PinReleases w')
      (Webserver.World.start exampleStart.manager .serverCert) as := by
  intro h
  have hrun := h earlyPin _ rfl
  exact not_releases_of_early rfl rfl rfl rfl (hrun.2 _ rfl).1

end Moonshine.Proof.Webserver
