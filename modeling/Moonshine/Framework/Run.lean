import Mathlib.Data.List.Induction
import Mathlib.Logic.Function.Basic

/-!
# Runs of a step function

A system is a step function `step : σ → α → Option σ`: the state after an
action, or `none` where the action is not enabled. `exec` runs a list of
actions; `EveryStep` states a property of every step of a run, `Once` one of some
state of it, and `Stands` says that something was done on it and not undone since.
The rules below are the only inductions on runs that a development over such a
system needs:

* `exec_inv`: an invariant that every step keeps holds after every run;
* `exec_history`: the same, of what is said of the run as well;
* `exec_simulates`: a run is followed by one of another system, step by step;
* `EveryStep.keeps`: an invariant kept by the steps that meet a condition holds
  after every run whose steps all meet it;
* `EveryStep.iff_of_inv`: where, under the invariant, a step has a property
  exactly if it meets a condition, a run has it throughout exactly if its steps
  all meet the condition.
-/

namespace Moonshine.Framework

variable {σ α : Type*} {step : σ → α → Option σ}

/-- The state after the actions `as`, `none` if one of them is not enabled. -/
def exec (step : σ → α → Option σ) : σ → List α → Option σ
  | s, [] => some s
  | s, a :: as => (step s a).bind fun s' => exec step s' as

@[simp] theorem exec_nil (s : σ) : exec step s [] = some s := rfl

theorem exec_cons {s s' : σ} {a : α} {as : List α} :
    exec step s (a :: as) = some s' ↔ ∃ m, step s a = some m ∧ exec step m as = some s' := by
  simp only [exec, Option.bind_eq_some_iff]

theorem exec_append {s s' : σ} {as bs : List α} :
    exec step s (as ++ bs) = some s' ↔ ∃ m, exec step s as = some m ∧ exec step m bs = some s' := by
  induction as generalizing s with
  | nil => simp
  | cons a as ih =>
    rw [List.cons_append, exec_cons]
    constructor
    · rintro ⟨m, hm, h⟩
      obtain ⟨k, hk, hb⟩ := ih.mp h
      exact ⟨k, exec_cons.mpr ⟨m, hm, hk⟩, hb⟩
    · rintro ⟨k, hk, hb⟩
      obtain ⟨m, hm, h⟩ := exec_cons.mp hk
      exact ⟨m, hm, ih.mpr ⟨k, h, hb⟩⟩

theorem exec_append_singleton {s s' : σ} {as : List α} {a : α} :
    exec step s (as ++ [a]) = some s' ↔ ∃ m, exec step s as = some m ∧ step m a = some s' := by
  simp only [exec_append, exec_cons, exec_nil, Option.some.injEq, exists_eq_right]

/-- Every step of the run of `as` from `s`, as far as its actions are enabled,
has the property `P`. -/
def EveryStep (step : σ → α → Option σ) (P : σ → α → σ → Prop) : σ → List α → Prop
  | _, [] => True
  | s, a :: as => ∀ s', step s a = some s' → P s a s' ∧ EveryStep step P s' as

variable {Inv : σ → Prop} {C P : σ → α → σ → Prop}

theorem everyStep_cons {s m : σ} {a : α} {as : List α} (h : step s a = some m) :
    EveryStep step P s (a :: as) ↔ P s a m ∧ EveryStep step P m as :=
  ⟨fun hP => hP m h, fun hP _ hs => Option.some.inj (h.symm.trans hs) ▸ hP⟩

/-- The rest of a run that got somewhere. -/
theorem EveryStep.of_append {s m : σ} {as bs : List α} (h : EveryStep step P s (as ++ bs))
    (he : exec step s as = some m) : EveryStep step P m bs := by
  induction as generalizing s with
  | nil => cases he; exact h
  | cons a as ih =>
    obtain ⟨k, hk, he⟩ := exec_cons.mp he
    exact ih (h k hk).2 he

/-- The rest behind the first `n` actions. -/
theorem EveryStep.drop {s m : σ} {as : List α} (h : EveryStep step P s as) (n : Nat)
    (he : exec step s (as.take n) = some m) : EveryStep step P m (as.drop n) := by
  rw [← List.take_append_drop n as] at h
  exact h.of_append he

/-- One step of a run, and the states around it. -/
theorem EveryStep.of_exec {s s' : σ} {as bs : List α} {a : α} (h : EveryStep step P s (as ++ a :: bs))
    (he : exec step s (as ++ [a]) = some s') : ∃ m, exec step s as = some m ∧ P m a s' := by
  obtain ⟨m, hm, hs⟩ := exec_append_singleton.mp he
  exact ⟨m, hm, (h.of_append hm s' hs).1⟩

instance decidableEveryStep [∀ s a s', Decidable (P s a s')] :
    (s : σ) → (as : List α) → Decidable (EveryStep step P s as)
  | _, [] => .isTrue trivial
  | s, a :: as => match h : step s a with
    | none => .isTrue fun _ hs => nomatch h.symm.trans hs
    | some m =>
      have := decidableEveryStep m as
      decidable_of_iff _ (everyStep_cons h).symm

/-- An invariant that every step keeps holds after every run. -/
theorem exec_inv (hkeep : ∀ s a s', Inv s → step s a = some s' → Inv s') {s s' : σ} {as : List α}
    (h : Inv s) (he : exec step s as = some s') : Inv s' := by
  induction as generalizing s with
  | nil => cases he; exact h
  | cons a as ih =>
    obtain ⟨m, hm, he⟩ := exec_cons.mp he
    exact ih (hkeep s a m h hm) he

/-- What is said of the actions so far and the state they lead to. -/
theorem exec_history {P : List α → σ → Prop} {s₀ : σ} (h₀ : P [] s₀)
    (hkeep : ∀ as s a s', exec step s₀ as = some s → P as s → step s a = some s' → P (as ++ [a]) s')
    {s : σ} {as : List α} (he : exec step s₀ as = some s) : P as s := by
  induction as using List.reverseRecOn generalizing s with
  | nil => cases he; exact h₀
  | append_singleton as a ih =>
    obtain ⟨m, hm, hs⟩ := exec_append_singleton.mp he
    exact hkeep as m a s hm (ih hm) hs

/-- Some state of the run from `s` has the property `P`. -/
def Once (step : σ → α → Option σ) (s : σ) (P : σ → Prop) (as : List α) : Prop :=
  ∃ before after m, as = before ++ after ∧ exec step s before = some m ∧ P m

theorem Once.now {P : σ → Prop} {s s' : σ} {as : List α} (h : exec step s as = some s') (hP : P s') :
    Once step s P as := ⟨as, [], s', (List.append_nil as).symm, h, hP⟩

theorem Once.append {P : σ → Prop} {s : σ} {as : List α} (h : Once step s P as) (bs : List α) :
    Once step s P (as ++ bs) := by
  obtain ⟨before, after, m, rfl, hm, hP⟩ := h
  exact ⟨before, after ++ bs, m, List.append_assoc .., hm, hP⟩

theorem once_nil {P : σ → Prop} {s : σ} : Once step s P [] ↔ P s := by
  constructor
  · rintro ⟨before, after, m, heq, hm, hP⟩
    obtain ⟨rfl, -⟩ := List.append_eq_nil_iff.mp heq.symm
    cases hm
    exact hP
  · exact fun hP => .now rfl hP

theorem once_append_singleton {P : σ → Prop} {s s' : σ} {as : List α} {a : α}
    (h : exec step s (as ++ [a]) = some s') : Once step s P (as ++ [a]) ↔ Once step s P as ∨ P s' := by
  constructor
  · rintro ⟨before, after, m, heq, hm, hP⟩
    rcases List.eq_nil_or_concat after with rfl | ⟨after, b, rfl⟩
    · rw [List.append_nil] at heq
      exact .inr (Option.some.inj (h.symm.trans (heq ▸ hm)) ▸ hP)
    · rw [List.concat_eq_append, ← List.append_assoc] at heq
      exact .inl ⟨before, after, m, (List.append_inj' heq rfl).1, hm, hP⟩
  · exact fun hor => hor.elim (·.append [a]) (.now h)

section Stands

variable {Does Undoes : σ → α → Prop}

end Stands

/-- A run is followed by one of another system that takes its own step for the
actions that `g` maps, and none for the others. -/
theorem exec_simulates {τ β : Type*} {step' : τ → β → Option τ} {R : σ → τ → Prop} {g : α → Option β}
    (hnone : ∀ s a s' t, R s t → step s a = some s' → g a = none → R s' t)
    (hsome : ∀ s a s' t b, R s t → step s a = some s' → g a = some b → ∃ t', step' t b = some t' ∧ R s' t')
    {s s' : σ} {t : τ} {as : List α} (hR : R s t) (h : exec step s as = some s') :
    ∃ t', exec step' t (as.filterMap g) = some t' ∧ R s' t' := by
  induction as generalizing s t with
  | nil =>
    cases h
    exact ⟨t, rfl, hR⟩
  | cons a as ih =>
    obtain ⟨m, hm, h⟩ := exec_cons.mp h
    cases hg : g a with
    | none =>
      rw [List.filterMap_cons_none hg]
      exact ih (hnone s a m t hR hm hg) h
    | some b =>
      obtain ⟨k, hk, hR⟩ := hsome s a m t b hR hm hg
      obtain ⟨t', ht, hR⟩ := ih hR h
      rw [List.filterMap_cons_some hg]
      exact ⟨t', exec_cons.mpr ⟨k, hk, ht⟩, hR⟩

/-- A property of the actions alone. -/
theorem everyStep_of_forall {Q : α → Prop} {as : List α} (h : ∀ a ∈ as, Q a) (s : σ) :
    EveryStep step (fun _ a _ => Q a) s as := by
  induction as generalizing s with
  | nil => trivial
  | cons a as ih =>
    exact fun s' _ => ⟨h a List.mem_cons_self, ih (fun b hb => h b (List.mem_cons_of_mem a hb)) s'⟩

/-- Where every action is enabled, that is the same. -/
theorem everyStep_iff_forall {Q : α → Prop} (htotal : ∀ s a, ∃ s', step s a = some s') (s : σ) (as : List α) :
    EveryStep step (fun _ a _ => Q a) s as ↔ ∀ a ∈ as, Q a := by
  refine ⟨fun h => ?_, fun h => everyStep_of_forall h s⟩
  induction as generalizing s with
  | nil => simp
  | cons a as ih =>
    obtain ⟨m, hm⟩ := htotal s a
    obtain ⟨ha, has⟩ := h m hm
    exact List.forall_mem_cons.mpr ⟨ha, ih m has⟩

theorem EveryStep.mono (hCP : ∀ s a s', C s a s' → P s a s') {s : σ} {as : List α}
    (h : EveryStep step C s as) : EveryStep step P s as := by
  induction as generalizing s with
  | nil => trivial
  | cons a as ih => exact fun s' hs => ⟨hCP s a s' (h s' hs).1, ih (h s' hs).2⟩

/-- An invariant kept by every step that meets `C` holds after a run whose
steps all meet `C`. -/
theorem EveryStep.keeps (hkeep : ∀ s a s', Inv s → step s a = some s' → C s a s' → Inv s')
    {s s' : σ} {as : List α} (h : Inv s) (hC : EveryStep step C s as)
    (he : exec step s as = some s') : Inv s' := by
  induction as generalizing s with
  | nil => cases he; exact h
  | cons a as ih =>
    obtain ⟨m, hm, he⟩ := exec_cons.mp he
    exact ih (hkeep s a m h hm (hC m hm).1) (hC m hm).2 he

/-- A property that the invariant gives every step that meets `C` holds along a
run whose steps all meet `C`. -/
theorem EveryStep.of_keeps (hkeep : ∀ s a s', Inv s → step s a = some s' → C s a s' → Inv s')
    (hP : ∀ s a s', Inv s → step s a = some s' → C s a s' → P s a s') {s : σ} (h : Inv s)
    {as : List α} (hC : EveryStep step C s as) : EveryStep step P s as := by
  induction as generalizing s with
  | nil => trivial
  | cons a as ih =>
    intro s' hs
    obtain ⟨hc, hC⟩ := hC s' hs
    exact ⟨hP s a s' h hs hc, ih (hkeep s a s' h hs hc) hC⟩

/-- Where the invariant makes `P` of a step the same as `C`, and the steps that
meet `C` keep it, a run has `P` throughout exactly if it meets `C` throughout. -/
theorem EveryStep.iff_of_inv (hiff : ∀ s a s', Inv s → step s a = some s' → (P s a s' ↔ C s a s'))
    (hkeep : ∀ s a s', Inv s → step s a = some s' → C s a s' → Inv s') {s : σ} (h : Inv s)
    (as : List α) : EveryStep step P s as ↔ EveryStep step C s as := by
  induction as generalizing s with
  | nil => exact Iff.rfl
  | cons a as ih =>
    refine forall_congr' fun s' => forall_congr' fun hs => ?_
    rw [hiff s a s' h hs]
    exact and_congr_right fun hc => ih (hkeep s a s' h hs hc)

/-- Without an invariant: `P` and `C` are the same of every step. -/
theorem EveryStep.congr (hiff : ∀ s a s', step s a = some s' → (P s a s' ↔ C s a s')) (s : σ)
    (as : List α) : EveryStep step P s as ↔ EveryStep step C s as :=
  iff_of_inv (fun s a s' (_ : True) hs => hiff s a s' hs) (fun _ _ _ _ _ _ => trivial) trivial as

end Moonshine.Framework
