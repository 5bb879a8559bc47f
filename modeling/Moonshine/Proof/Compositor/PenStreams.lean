import Mathlib.Data.Finset.Basic
import Moonshine.Framework.Run
import Moonshine.Impl.Compositor.Pen

/-!
# Streams of tool calls

`toolStep` is what a tablet tool may be told in which order: a tool that is away comes into
proximity first, and one that is near goes out of it with its tip up and no button
pressed. After every event the tool that the compositor holds active is near, with the
buttons of `penButtons` pressed, and all others are away (`Inv`). So the calls on each tool
are in order after any events: `calls_wellFormed`.
-/

namespace Moonshine.Proof.Compositor

open Moonshine.Framework Moonshine.Impl.Compositor Moonshine.Impl.Threads Moonshine.Impl.Negotiation

/-! ## What a tool may be told -/

inductive ToolState
  | away
  | near (tipDown : Bool) (pressed : Finset UInt32)
  deriving DecidableEq

def toolStep : ToolState → ToolCall → Option ToolState
  | .away, .proximityIn .. => some (.near false ∅)
  | .away, .proximityOut => none
  | .away, .tipDown => none
  | .away, .tipUp => none
  | .away, .button .. => none
  | .away, .distance _ => none
  | .away, .pressure _ => none
  | .away, .tilt .. => none
  | .away, .motion .. => none
  | .near .., .proximityIn .. => none
  | .near tip pressed, .proximityOut => if tip = false ∧ pressed = ∅ then some .away else none
  | .near _ pressed, .tipDown => some (.near true pressed)
  | .near _ pressed, .tipUp => some (.near false pressed)
  | .near tip pressed, .button button true =>
    if button ∈ pressed then none else some (.near tip (insert button pressed))
  | .near tip pressed, .button button false =>
    if button ∈ pressed then some (.near tip (pressed.erase button)) else none
  | .near tip pressed, .distance _ => some (.near tip pressed)
  | .near tip pressed, .pressure _ => some (.near tip pressed)
  | .near tip pressed, .tilt .. => some (.near tip pressed)
  | .near tip pressed, .motion .. => some (.near tip pressed)

/-- The calls on one tool. -/
def callsOf (tool : PenTool) (calls : List (PenTool × ToolCall)) : List ToolCall :=
  (calls.filter fun c => c.1 = tool).map Prod.snd

theorem callsOf_append (tool tool' : PenTool) (calls : List (PenTool × ToolCall)) (cs : List ToolCall) :
    callsOf tool' (calls ++ cs.map (tool, ·)) = callsOf tool' calls ++ if tool' = tool then cs else [] := by
  rw [callsOf, List.filter_append, List.map_append, List.filter_map, List.map_map]
  split
  next h => simp [callsOf, Function.comp_def, h]
  next h => simp [callsOf, Function.comp_def, Ne.symm h]

/-- The state once the tool has been called. -/
def log (s : PenState) (tool : PenTool) (cs : List ToolCall) : PenState :=
  { s with calls := s.calls ++ cs.map (tool, ·) }

variable {s : PenState} {tool : PenTool} {old new : UInt8}

theorem call_run (c : ToolCall) : PenState.call tool c s = (.ok (), log s tool [c]) := rfl

theorem log_nil : log s tool [] = s := by simp [log]

theorem log_log (cs cs' : List ToolCall) : log (log s tool cs) tool cs' = log s tool (cs ++ cs') := by
  simp [log]

/-! ## Buttons -/

/-- The calls of `sync_pen_buttons`. -/
def syncCalls (old new : UInt8) (codes : List (UInt8 × UInt32)) : List ToolCall :=
  codes.filterMap fun (mask, button) =>
    if old &&& mask ≠ new &&& mask then some (.button button (new &&& mask ≠ 0)) else none

theorem syncPenButtons_run (codes : List (UInt8 × UInt32)) :
    syncPenButtons tool old new codes s = (.ok (), log s tool (syncCalls old new codes)) := by
  induction codes generalizing s with
  | nil => rw [syncCalls, List.filterMap_nil, log_nil]; rfl
  | cons code rest ih =>
    obtain ⟨mask, button⟩ := code
    rw [syncPenButtons]
    by_cases h : old &&& mask ≠ new &&& mask
    · have hcalls : syncCalls old new ((mask, button) :: rest) =
          [.button button (new &&& mask ≠ 0)] ++ syncCalls old new rest :=
        List.filterMap_cons_some (if_pos h)
      simp only [if_pos h]
      rw [Prog.bind_of_ok (call_run _), ih, log_log, hcalls]
    · have hcalls : syncCalls old new ((mask, button) :: rest) = syncCalls old new rest :=
        List.filterMap_cons_none (if_neg h)
      simp only [if_neg h]
      rw [hcalls]
      exact ih

/-- The buttons whose bits are set. -/
def held (buttons : UInt8) : Finset UInt32 :=
  ((penButtonCodes.filter fun code => buttons &&& code.1 ≠ 0).map Prod.snd).toFinset

/-- A mask of one bit. -/
def SingleBit (mask : UInt8) : Prop := ∀ x : UInt8, x &&& mask = 0 ∨ x &&& mask = mask

theorem forall_penButtonCodes {P : UInt8 × UInt32 → Prop} :
    (∀ code ∈ penButtonCodes, P code) ↔ P (0x01, 0x14B) ∧ P (0x02, 0x14C) ∧ P (0x04, 0x149) := by
  simp [penButtonCodes]

theorem singleBit_of_mem {code : UInt8 × UInt32} (h : code ∈ penButtonCodes) : SingleBit code.1 := by
  have hbits : ∀ x : Fin 256,
      (UInt8.ofFin x &&& 1 = 0 ∨ UInt8.ofFin x &&& 1 = 1) ∧ (UInt8.ofFin x &&& 2 = 0 ∨ UInt8.ofFin x &&& 2 = 2) ∧
        (UInt8.ofFin x &&& 4 = 0 ∨ UInt8.ofFin x &&& 4 = 4) := by
    decide +kernel
  have hall : ∀ code ∈ penButtonCodes, SingleBit code.1 := forall_penButtonCodes.mpr
    ⟨fun x => (hbits x.toFin).1, fun x => (hbits x.toFin).2.1, fun x => (hbits x.toFin).2.2⟩
  exact hall code h

theorem mem_held {buttons : UInt8} {button : UInt32} :
    button ∈ held buttons ↔ ∃ code ∈ penButtonCodes, code.2 = button ∧ buttons &&& code.1 ≠ 0 := by
  simp only [held, List.mem_toFinset, List.mem_map, List.mem_filter, decide_eq_true_eq]
  constructor
  · rintro ⟨code, ⟨hcode, hbit⟩, rfl⟩
    exact ⟨code, hcode, rfl, hbit⟩
  · rintro ⟨code, hcode, rfl, hbit⟩
    exact ⟨code, ⟨hcode, hbit⟩, rfl⟩

theorem held_zero : held 0 = ∅ := by decide

theorem syncCalls_cons (code : UInt8 × UInt32) (rest : List (UInt8 × UInt32)) :
    syncCalls old new (code :: rest) = syncCalls old new [code] ++ syncCalls old new rest := by
  rw [syncCalls, syncCalls, syncCalls, ← List.filterMap_append, List.singleton_append]

theorem exec_syncCalls_singleton {mask : UInt8} {button : UInt32} (hbit : SingleBit mask) {tip : Bool}
    {pressed : Finset UInt32} (hpressed : button ∈ pressed ↔ old &&& mask ≠ 0) :
    ∃ pressed', exec toolStep (.near tip pressed) (syncCalls old new [(mask, button)]) = some (.near tip pressed') ∧
      (button ∈ pressed' ↔ new &&& mask ≠ 0) ∧ ∀ b, b ≠ button → (b ∈ pressed' ↔ b ∈ pressed) := by
  by_cases hdiff : old &&& mask ≠ new &&& mask
  · have hcalls : syncCalls old new [(mask, button)] = [.button button (new &&& mask ≠ 0)] :=
      List.filterMap_cons_some (if_pos hdiff)
    rw [hcalls]
    by_cases hnew : new &&& mask = 0
    · -- The bit was set, as it differs.
      have hmem : button ∈ pressed := hpressed.mpr fun hold => hdiff (hold.trans hnew.symm)
      exact ⟨pressed.erase button, by simp [exec, toolStep, hnew, hmem], by simp [hnew], fun b hb => by simp [hb]⟩
    · have hold : old &&& mask = 0 := by
        obtain hold | hold := hbit old
        · exact hold
        · exact absurd (hold.trans ((hbit new).resolve_left hnew).symm) hdiff
      have hmem : button ∉ pressed := fun h => hpressed.mp h hold
      exact ⟨insert button pressed, by simp [exec, toolStep, hnew, hmem], by simp [hnew], fun b hb => by simp [hb]⟩
  · have hcalls : syncCalls old new [(mask, button)] = [] := List.filterMap_cons_none (if_neg hdiff)
    rw [not_ne_iff] at hdiff
    rw [hcalls]
    exact ⟨pressed, rfl, by rw [hpressed, hdiff], fun _ _ => Iff.rfl⟩

/-- Each button that changes is reported once, in the direction it changes. -/
theorem exec_syncCalls {codes : List (UInt8 × UInt32)} (hbits : ∀ code ∈ codes, SingleBit code.1)
    (hnodup : (codes.map Prod.snd).Nodup) {tip : Bool} {pressed : Finset UInt32}
    (hpressed : ∀ code ∈ codes, code.2 ∈ pressed ↔ old &&& code.1 ≠ 0) :
    ∃ pressed', exec toolStep (.near tip pressed) (syncCalls old new codes) = some (.near tip pressed') ∧
      (∀ code ∈ codes, code.2 ∈ pressed' ↔ new &&& code.1 ≠ 0) ∧
      ∀ button, button ∉ codes.map Prod.snd → (button ∈ pressed' ↔ button ∈ pressed) := by
  induction codes generalizing pressed with
  | nil => exact ⟨pressed, rfl, by simp, by simp⟩
  | cons code rest ih =>
    rw [List.map_cons, List.nodup_cons] at hnodup
    obtain ⟨hfresh, hnodup⟩ := hnodup
    have hne : ∀ code' ∈ rest, code'.2 ≠ code.2 := fun code' hcode heq =>
      hfresh (heq ▸ List.mem_map_of_mem hcode)
    obtain ⟨p, hexec, hhead, hother⟩ : ∃ p, exec toolStep (.near tip pressed) (syncCalls old new [code]) =
        some (.near tip p) ∧ (code.2 ∈ p ↔ new &&& code.1 ≠ 0) ∧ ∀ b, b ≠ code.2 → (b ∈ p ↔ b ∈ pressed) :=
      exec_syncCalls_singleton (hbits code List.mem_cons_self) (hpressed code List.mem_cons_self)
    obtain ⟨p', hexec', htail, hother'⟩ := ih (fun c hc => hbits c (List.mem_cons_of_mem code hc)) hnodup
      fun c hc => (hother c.2 (hne c hc)).trans (hpressed c (List.mem_cons_of_mem code hc))
    refine ⟨p', ?_, ?_, ?_⟩
    · rw [syncCalls_cons]
      exact exec_append.mpr ⟨_, hexec, hexec'⟩
    · rw [List.forall_mem_cons]
      exact ⟨(hother' code.2 hfresh).trans hhead, htail⟩
    · intro button hbutton
      rw [List.map_cons, List.mem_cons, not_or] at hbutton
      exact (hother' button hbutton.2).trans (hother button hbutton.1)

/-- The buttons held before become those held after. -/
theorem exec_syncCalls_held (tip : Bool) (old new : UInt8) :
    exec toolStep (.near tip (held old)) (syncCalls old new penButtonCodes) = some (.near tip (held new)) := by
  have hnodup : (penButtonCodes.map Prod.snd).Nodup := by decide
  have hheld : ∀ buttons, ∀ code ∈ penButtonCodes, code.2 ∈ held buttons ↔ buttons &&& code.1 ≠ 0 := by
    intro buttons code hcode
    rw [mem_held]
    constructor
    · rintro ⟨code', hcode', heq, hbit⟩
      rwa [List.inj_on_of_nodup_map hnodup hcode' hcode heq] at hbit
    · exact fun hbit => ⟨code, hcode, rfl, hbit⟩
  obtain ⟨p, hexec, hcodes, hother⟩ : ∃ p, exec toolStep (.near tip (held old)) (syncCalls old new penButtonCodes) =
      some (.near tip p) ∧ _ := exec_syncCalls (fun _ => singleBit_of_mem) hnodup (hheld old)
  have hp : p = held new := by
    ext button
    by_cases hmem : button ∈ penButtonCodes.map Prod.snd
    · obtain ⟨code, hcode, rfl⟩ := List.mem_map.mp hmem
      rw [hcodes code hcode, hheld new code hcode]
    · rw [hother button hmem, mem_held, mem_held]
      have hnone : ∀ code ∈ penButtonCodes, code.2 ≠ button := fun code hcode heq =>
        hmem (heq ▸ List.mem_map_of_mem hcode)
      exact ⟨fun ⟨code, hcode, heq, _⟩ => absurd heq (hnone code hcode),
        fun ⟨code, hcode, heq, _⟩ => absurd heq (hnone code hcode)⟩
  rwa [hp] at hexec

/-! ## The invariant -/

/-- What the compositor takes the tool to be in. -/
def Matches (s : PenState) (tool : PenTool) (m : ToolState) : Prop :=
  if s.activePenToolKind.map penToolDescriptor = some tool then ∃ tip, m = .near tip (held s.penButtons)
  else m = .away

structure PenInv (s : PenState) : Prop where
  tools : ∀ tool, ∃ m, exec toolStep .away (callsOf tool s.calls) = some m ∧ Matches s tool m
  known : ∀ toolKind, s.activePenToolKind = some toolKind → penToolDescriptor toolKind ∈ s.tools
  idle : s.activePenToolKind = none → s.penButtons = 0

variable {s' : PenState}

/-- What the calls on one tool have to do for it, and the change of the state for the others. -/
theorem PenInv.extend (h : PenInv s) (tool : PenTool) (cs : List ToolCall)
    (hcalls : s'.calls = s.calls ++ cs.map (tool, ·))
    (hself : ∀ m, Matches s tool m → ∃ m', exec toolStep m cs = some m' ∧ Matches s' tool m')
    (hother : ∀ tool', tool' ≠ tool → ∀ m, Matches s tool' m → Matches s' tool' m)
    (hknown : ∀ toolKind, s'.activePenToolKind = some toolKind → penToolDescriptor toolKind ∈ s'.tools)
    (hidle : s'.activePenToolKind = none → s'.penButtons = 0) : PenInv s' := by
  refine ⟨fun tool' => ?_, hknown, hidle⟩
  obtain ⟨m, hexec, hmatches⟩ := h.tools tool'
  rw [hcalls, callsOf_append]
  by_cases htool : tool' = tool
  · subst htool
    obtain ⟨m', hexec', hmatches'⟩ := hself m hmatches
    exact ⟨m', exec_append.mpr ⟨m, hexec, by rwa [if_pos rfl]⟩, hmatches'⟩
  · rw [if_neg htool, List.append_nil]
    exact ⟨m, hexec, hother tool' htool m hmatches⟩

theorem matches_active {toolKind : UInt8} {m : ToolState} (hactive : s.activePenToolKind = some toolKind) :
    Matches s (penToolDescriptor toolKind) m ↔ ∃ tip, m = .near tip (held s.penButtons) := by
  rw [Matches, hactive]
  exact iff_of_eq (if_pos rfl)

theorem matches_away {m : ToolState} (h : s.activePenToolKind.map penToolDescriptor ≠ some tool) :
    Matches s tool m ↔ m = .away :=
  iff_of_eq (if_neg h)

/-- The tools other than the active one stay away. -/
theorem matches_other {toolKind : UInt8} {tool' : PenTool} (htool : tool' ≠ penToolDescriptor toolKind)
    (hactive : s.activePenToolKind = some toolKind ∨ s.activePenToolKind = none)
    (hactive' : s'.activePenToolKind = some toolKind ∨ s'.activePenToolKind = none) (m : ToolState)
    (h : Matches s tool' m) : Matches s' tool' m := by
  have haway : ∀ t : PenState, t.activePenToolKind = some toolKind ∨ t.activePenToolKind = none →
      t.activePenToolKind.map penToolDescriptor ≠ some tool' := by
    rintro t (ht | ht)
    · simpa [ht] using htool.symm
    · simp [ht]
  rw [matches_away (haway s hactive)] at h
  exact (matches_away (haway s' hactive')).mpr h

/-! ## What the handler does -/

/-- What the active tool is told when it is released. -/
def releaseCalls (buttons : UInt8) : List ToolCall :=
  .tipUp :: syncCalls buttons 0 penButtonCodes ++ [.proximityOut]

theorem exec_releaseCalls (tip : Bool) (buttons : UInt8) :
    exec toolStep (.near tip (held buttons)) (releaseCalls buttons) = some .away := by
  refine exec_append.mpr ⟨.near false (held 0), ?_, ?_⟩
  · exact exec_cons.mpr ⟨.near false (held buttons), rfl, exec_syncCalls_held false buttons 0⟩
  · rw [held_zero]
    rfl

theorem releasePen_run (h : PenInv s) :
    ∃ s', releasePen s = (.ok (), s') ∧ PenInv s' ∧ s'.activePenToolKind = none := by
  rw [releasePen, Prog.gets_bind, Prog.modify_bind]
  cases hactive : s.activePenToolKind with
  | none =>
    refine ⟨_, rfl, ⟨fun tool' => ?_, by simp, by simp⟩, rfl⟩
    obtain ⟨m, hexec, hmatches⟩ := h.tools tool'
    rw [matches_away (by simp [hactive])] at hmatches
    exact ⟨m, hexec, (matches_away (by simp)).mpr hmatches⟩
  | some toolKind =>
    have hknown := h.known toolKind hactive
    simp only [Prog.gets_bind, decide_eq_true hknown, if_true]
    rw [Prog.bind_of_ok (call_run _), Prog.bind_of_ok (syncPenButtons_run _), Prog.bind_of_ok (call_run _), log_log,
      log_log]
    refine ⟨_, rfl, ?_, rfl⟩
    refine h.extend (penToolDescriptor toolKind) (releaseCalls s.penButtons) (by simp [log, releaseCalls]) ?_ ?_
      (by simp [log]) (by simp)
    · intro m hm
      obtain ⟨tip, rfl⟩ := (matches_active hactive).mp hm
      exact ⟨.away, exec_releaseCalls tip s.penButtons, (matches_away (by simp [log])).mpr rfl⟩
    · exact fun tool' htool m hm => matches_other htool (.inl hactive) (.inr rfl) m hm

theorem getPenTool_run (toolKind : UInt8) (h : PenInv s) : ∃ s', getPenTool toolKind s =
    (.ok (penToolDescriptor toolKind), s') ∧ PenInv s' ∧ s'.activePenToolKind = s.activePenToolKind ∧
      s'.penButtons = s.penButtons ∧ penToolDescriptor toolKind ∈ s'.tools := by
  refine ⟨_, rfl, ⟨h.tools, fun kind hactive => ?_, h.idle⟩, rfl, rfl, ?_⟩
  · have hmem := h.known kind hactive
    simp only
    split
    next => exact hmem
    next => exact List.mem_append_left _ hmem
  · simp only
    split
    next hmem => exact hmem
    next => exact List.mem_append_right _ (List.mem_singleton_self _)

/-- What a tool in proximity is told of a contact or hover event. -/
def reportCalls (old : UInt8) (event : PenInput) (location : Position) (focus : Under) : List ToolCall :=
  [if event.eventKind = pointerEventHover then .distance (clampUnit event.pressureOrDistance)
    else .pressure (clampUnit event.pressureOrDistance)] ++
  (if event.rotation ≠ rotationUnknown && event.tilt ≠ tiltUnknown then [.tilt event.rotation (min event.tilt 90)]
    else []) ++
  [.motion location focus] ++ syncCalls old event.buttons penButtonCodes ++
  (if event.eventKind = pointerEventDown ∨ event.eventKind = pointerEventMove then [.tipDown]
    else if event.eventKind = pointerEventUp then [.tipUp] else [])

theorem reportPen_run (event : PenInput) (location : Position) (focus : Under) :
    reportPen tool event location focus s = (.ok (),
      { log s tool (reportCalls s.penButtons event location focus) with penButtons := event.buttons }) := by
  have htip : ∀ s : PenState, (if event.eventKind = pointerEventDown ∨ event.eventKind = pointerEventMove then
        PenState.call tool .tipDown
      else if event.eventKind = pointerEventUp then PenState.call tool .tipUp else pure () : Prog PenState Unit) s =
      (.ok (), log s tool (if event.eventKind = pointerEventDown ∨ event.eventKind = pointerEventMove then [.tipDown]
        else if event.eventKind = pointerEventUp then [.tipUp] else [])) := by
    intro s
    split_ifs <;> first | rfl | (rw [log_nil]; rfl)
  simp only [reportPen]
  rw [Prog.bind_of_ok (call_run _)]
  by_cases htilt : (event.rotation ≠ rotationUnknown && event.tilt ≠ tiltUnknown) = true
  · simp only [if_pos htilt]
    rw [Prog.bind_of_ok (call_run _), Prog.bind_of_ok (call_run _), Prog.gets_bind,
      Prog.bind_of_ok (syncPenButtons_run _), Prog.modify_bind]
    refine (htip _).trans ?_
    simp only [log, reportCalls, if_pos htilt, List.map_append, List.append_assoc]
  · simp only [if_neg htilt]
    rw [Prog.bind_of_ok (call_run _), Prog.gets_bind, Prog.bind_of_ok (syncPenButtons_run _), Prog.modify_bind]
    refine (htip _).trans ?_
    simp only [log, reportCalls, if_neg htilt, List.map_append, List.append_assoc, List.nil_append]

theorem exec_reportCalls (tip : Bool) (old : UInt8) (event : PenInput) (location : Position) (focus : Under) :
    ∃ tip', exec toolStep (.near tip (held old)) (reportCalls old event location focus) =
      some (.near tip' (held event.buttons)) := by
  have hvalue : exec toolStep (.near tip (held old)) [if event.eventKind = pointerEventHover then
      .distance (clampUnit event.pressureOrDistance) else .pressure (clampUnit event.pressureOrDistance)] =
      some (.near tip (held old)) := by
    split <;> rfl
  have htilt : exec toolStep (.near tip (held old)) (if event.rotation ≠ rotationUnknown && event.tilt ≠ tiltUnknown
      then [.tilt event.rotation (min event.tilt 90)] else []) = some (.near tip (held old)) := by
    split <;> rfl
  have htip : ∃ tip', exec toolStep (.near tip (held event.buttons))
      (if event.eventKind = pointerEventDown ∨ event.eventKind = pointerEventMove then [.tipDown]
        else if event.eventKind = pointerEventUp then [.tipUp] else []) =
      some (.near tip' (held event.buttons)) := by
    split_ifs
    · exact ⟨true, rfl⟩
    · exact ⟨false, rfl⟩
    · exact ⟨tip, rfl⟩
  obtain ⟨tip', htip⟩ := htip
  have hmotion : exec toolStep (.near tip (held old)) [.motion location focus] = some (.near tip (held old)) := rfl
  have hreported := exec_append.mpr ⟨_, exec_append.mpr ⟨_, hvalue, htilt⟩, hmotion⟩
  have hsynced := exec_append.mpr ⟨_, hreported, exec_syncCalls_held tip old event.buttons⟩
  exact ⟨tip', exec_append.mpr ⟨_, hsynced, htip⟩⟩

/-- A report on the active tool. -/
theorem reportPen_inv {toolKind : UInt8} (h : PenInv s) (hactive : s.activePenToolKind = some toolKind)
    (event : PenInput) (location : Position) (focus : Under) :
    ∃ s', reportPen (penToolDescriptor toolKind) event location focus s = (.ok (), s') ∧ PenInv s' := by
  refine ⟨_, reportPen_run event location focus, ?_⟩
  refine h.extend (penToolDescriptor toolKind) (reportCalls s.penButtons event location focus) rfl ?_ ?_
    h.known fun hnone => absurd (hactive.symm.trans hnone) (by simp)
  · intro m hm
    obtain ⟨tip, rfl⟩ := (matches_active hactive).mp hm
    obtain ⟨tip', hexec⟩ := exec_reportCalls tip s.penButtons event location focus
    exact ⟨_, hexec, (matches_active (by exact hactive)).mpr ⟨tip', rfl⟩⟩
  · intro tool' htool m hm
    refine matches_other htool (.inl hactive) ?_ m hm
    exact .inl hactive

/-- A tool comes into proximity. -/
theorem proximityIn_inv {toolKind : UInt8} (h : PenInv s) (hactive : s.activePenToolKind = none)
    (hknown : penToolDescriptor toolKind ∈ s.tools) (location : Position) (found : Surface × Position) :
    PenInv { log s (penToolDescriptor toolKind) [.proximityIn location found] with
      activePenToolKind := some toolKind } := by
  refine h.extend (penToolDescriptor toolKind) [.proximityIn location found] rfl ?_ ?_ ?_ (by simp)
  · intro m hm
    rw [matches_away (by simp [hactive])] at hm
    subst hm
    refine ⟨.near false ∅, rfl, (matches_active rfl).mpr ⟨false, ?_⟩⟩
    show ToolState.near false ∅ = .near false (held s.penButtons)
    rw [h.idle hactive, held_zero]
  · exact fun tool' htool m hm => matches_other htool (.inr hactive) (.inl rfl) m hm
  · intro kind hkind
    obtain rfl := Option.some.inj hkind
    exact hknown

theorem clamp_unit (v : ℚ) : ∃ v', clamp v 0 1 = .ok v' := by
  rw [clamp, if_pos (by decide +kernel)]
  exact ⟨_, rfl⟩

theorem normalizedPointerLocation_eq_ok (session : SessionContext) (x y : ℚ) :
    ∃ location, normalizedPointerLocation session x y = .ok location := by
  obtain ⟨x', hx⟩ := clamp_unit x
  obtain ⟨y', hy⟩ := clamp_unit y
  rw [normalizedPointerLocation, hx, Outcome.ok_bind, hy]
  exact ⟨_, rfl⟩

/-- A pen event, with the scene that it finds and whether the seat has the pen's tablet. -/
structure PenEvent where
  scene : Scene
  tabletPresent : Bool
  event : PenInput

/-- The buttons of the active tool change. -/
theorem buttonOnly_inv {toolKind : UInt8} (h : PenInv s) (hactive : s.activePenToolKind = some toolKind)
    (new : UInt8) : PenInv { log s (penToolDescriptor toolKind) (syncCalls s.penButtons new penButtonCodes) with
      penButtons := new } := by
  refine h.extend (penToolDescriptor toolKind) (syncCalls s.penButtons new penButtonCodes) rfl ?_ ?_ h.known
    fun hnone => absurd (hactive.symm.trans hnone) (by simp)
  · intro m hm
    obtain ⟨tip, rfl⟩ := (matches_active hactive).mp hm
    exact ⟨_, exec_syncCalls_held tip s.penButtons new, (matches_active (by exact hactive)).mpr ⟨tip, rfl⟩⟩
  · intro tool' htool m hm
    refine matches_other htool (.inl hactive) ?_ m hm
    exact .inl hactive

/-- No tool is active but that of the event. -/
theorem contactPen_inv (session : SessionContext) (e : PenEvent) (h : PenInv s)
    (hsame : ∀ toolKind, s.activePenToolKind = some toolKind → toolKind = e.event.toolKind) :
    ∃ s', contactPen session e.scene e.tabletPresent e.event s = (.ok (), s') ∧ PenInv s' := by
  obtain ⟨s', htool, h', hactive', -, hknown⟩ := getPenTool_run e.event.toolKind h
  obtain ⟨location, hlocation⟩ := normalizedPointerLocation_eq_ok session e.event.x e.event.y
  rw [contactPen, Prog.bind_of_ok htool]
  cases e.tabletPresent with
  | false => exact ⟨s', rfl, h'⟩
  | true =>
    have hmoved : PenInv { s' with cursorPosition := location } := ⟨h'.tools, h'.known, h'.idle⟩
    rw [if_pos rfl, hlocation, Prog.liftM_bind_ok, Prog.modify_bind, Prog.gets_bind]
    have hsame' : ∀ toolKind, s'.activePenToolKind = some toolKind → toolKind = e.event.toolKind := fun toolKind h =>
      hsame toolKind (hactive' ▸ h)
    generalize hmove : ({ s' with cursorPosition := location } : PenState) = s₁ at hmoved ⊢
    have hactive₁ : s₁.activePenToolKind = s'.activePenToolKind := hmove ▸ rfl
    have hknown₁ : penToolDescriptor e.event.toolKind ∈ s₁.tools := hmove ▸ hknown
    rw [← hactive₁] at hsame'
    cases hfocus : e.scene.findSurfaceAt location with
    | none =>
      cases hactive : s₁.activePenToolKind with
      | some toolKind =>
        obtain rfl := hsame' toolKind hactive
        exact reportPen_inv hmoved hactive e.event location none
      | none => exact ⟨_, rfl, hmoved⟩
    | some found =>
      cases hactive : s₁.activePenToolKind with
      | some toolKind =>
        obtain rfl := hsame' toolKind hactive
        exact reportPen_inv hmoved hactive e.event location (some found)
      | none =>
        simp only
        rw [Prog.bind_of_ok (call_run _), Prog.modify_bind]
        exact reportPen_inv (proximityIn_inv hmoved hactive hknown₁ location found) rfl e.event location (some found)

theorem processPenInput_inv (session : SessionContext) (e : PenEvent) (h : PenInv s) :
    ∃ s', processPenInput session e.scene e.tabletPresent e.event s = (.ok (), s') ∧ PenInv s' := by
  rw [processPenInput]
  by_cases hcancel : e.event.eventKind ∈ [pointerEventCancel, pointerEventHoverLeave, pointerEventCancelAll]
  · rw [if_pos hcancel]
    obtain ⟨s', hrelease, h', -⟩ := releasePen_run h
    exact ⟨s', hrelease, h'⟩
  · rw [if_neg hcancel]
    by_cases hbutton : e.event.eventKind = pointerEventButtonOnly
    · rw [if_pos hbutton, Prog.gets_bind]
      cases hactive : s.activePenToolKind with
      | none => exact ⟨s, rfl, h⟩
      | some toolKind =>
        simp only
        obtain ⟨s', htool, h', hactive', hbuttons, -⟩ := getPenTool_run toolKind h
        rw [hactive] at hactive'
        rw [Prog.bind_of_ok htool, Prog.gets_bind, Prog.bind_of_ok (syncPenButtons_run _)]
        exact ⟨_, rfl, buttonOnly_inv h' hactive' e.event.buttons⟩
    · rw [if_neg hbutton, Prog.gets_bind]
      by_cases hswitch : s.activePenToolKind.any (· ≠ e.event.toolKind) = true
      · obtain ⟨s', hrelease, h', hactive'⟩ := releasePen_run h
        simp only [if_pos hswitch]
        rw [Prog.bind_of_ok hrelease]
        exact contactPen_inv session e h' (by simp [hactive'])
      · simp only [if_neg hswitch]
        refine contactPen_inv session e h fun toolKind hactive => ?_
        simpa [hactive] using hswitch

/-! ## Streams -/

def penStep (session : SessionContext) (s : PenState) (e : PenEvent) : Option PenState :=
  match processPenInput session e.scene e.tabletPresent e.event s with
  | (.ok _, s') => some s'
  | (.err, _) => none
  | (.panic, _) => none

theorem penStep_inv (session : SessionContext) (e : PenEvent) (h : PenInv s) :
    ∃ s', penStep session s e = some s' ∧ PenInv s' := by
  obtain ⟨s', hrun, h'⟩ := processPenInput_inv session e h
  exact ⟨s', by rw [penStep, hrun], h'⟩

/-- No tool is known, active or pressed. -/
def initialPen (cursorPosition : Position) : PenState := ⟨none, 0, [], cursorPosition, []⟩

theorem penInv_initial (cursorPosition : Position) : PenInv (initialPen cursorPosition) := by
  refine ⟨fun tool => ⟨.away, rfl, ?_⟩, by simp [initialPen], fun _ => rfl⟩
  exact (matches_away (by simp [initialPen])).mpr rfl

theorem exec_penStep (session : SessionContext) (es : List PenEvent) (h : PenInv s) :
    ∃ s', exec (penStep session) s es = some s' ∧ PenInv s' := by
  induction es generalizing s with
  | nil => exact ⟨s, rfl, h⟩
  | cons e es ih =>
    obtain ⟨m, hstep, hm⟩ := penStep_inv session e h
    obtain ⟨s', hexec, h'⟩ := ih hm
    exact ⟨s', exec_cons.mpr ⟨m, hstep, hexec⟩, h'⟩

/-- After any events, the calls on each tool have been in order. -/
theorem calls_wellFormed (session : SessionContext) (cursorPosition : Position) (es : List PenEvent) :
    ∃ s, exec (penStep session) (initialPen cursorPosition) es = some s ∧
      ∀ tool, ∃ m, exec toolStep .away (callsOf tool s.calls) = some m := by
  obtain ⟨s, hexec, h⟩ := exec_penStep session es (penInv_initial cursorPosition)
  refine ⟨s, hexec, fun tool => ?_⟩
  obtain ⟨m, hm, -⟩ := h.tools tool
  exact ⟨m, hm⟩

end Moonshine.Proof.Compositor
