/-!
# Outcomes of a call

What a call ends in: a value, an `Err`, or a panic. `Outcome` is the monad of
calls that work on values only; `Prog σ` is that of calls that also change a
state `σ`, which keeps what was done to it before an `Err` or a panic.

* `bind_eq_ok` takes apart a sequence that ended in a value, `bind_of_ok` runs
  one forward;
* `Outcome.bind_ne_panic` is the rule for sequences that do not panic and
  `Outcome.bind_ne_err` for those that do not fail, `completes_bind` that for those which also do not fail under a condition, and
  `ensures_bind` that for those which also return what satisfies a predicate;
* `bind_state` is the rule for the state a sequence leaves behind, however it
  ends; `Moves R` says that a call only takes the state along `R`, which for a
  reflexive and transitive `R` follows from the parts (`Moves.bind`).
-/

namespace Moonshine.Framework

universe u v

inductive Outcome (α : Type u) : Type u
  | ok (a : α)
  | err
  | panic
  deriving DecidableEq, Repr

namespace Outcome

variable {α β : Type u}

instance : Monad Outcome where
  pure := .ok
  bind x f := match x with
    | .ok a => f a
    | .err => .err
    | .panic => .panic

@[simp] theorem pure_eq (a : α) : (pure a : Outcome α) = .ok a := rfl

@[simp] theorem ok_bind (a : α) (f : α → Outcome β) : (Outcome.ok a >>= f) = f a := rfl

@[simp] theorem err_bind (f : α → Outcome β) : (Outcome.err >>= f) = .err := rfl

@[simp] theorem panic_bind (f : α → Outcome β) : (Outcome.panic >>= f) = .panic := rfl

instance decidableForallOk {p : α → Prop} [DecidablePred p] : (x : Outcome α) → Decidable (∀ a, x = .ok a → p a)
  | .ok a => decidable_of_iff (p a) ⟨fun h _ heq => Outcome.ok.inj heq ▸ h, fun h => h a rfl⟩
  | .err => .isTrue (by rintro a ⟨⟩)
  | .panic => .isTrue (by rintro a ⟨⟩)

instance : LawfulMonad Outcome :=
  LawfulMonad.mk' Outcome (fun x => by cases x <;> rfl) (fun _ _ => rfl) (fun x _ _ => by cases x <;> rfl)

/-- Calls for each element of a list, if they all return. -/
theorem mapM_of_forall {l : List α} {f : α → Outcome β} (h : ∀ a ∈ l, ∃ b, f a = .ok b) :
    ∃ bs, l.mapM f = .ok bs := by
  induction l with
  | nil => exact ⟨[], List.mapM_nil⟩
  | cons a l ih =>
    obtain ⟨b, hb⟩ := h a List.mem_cons_self
    obtain ⟨bs, hbs⟩ := ih fun x hx => h x (List.mem_cons_of_mem a hx)
    refine ⟨b :: bs, ?_⟩
    rw [List.mapM_cons, hb, ok_bind, hbs, ok_bind, pure_eq]

theorem bind_eq_ok {x : Outcome α} {f : α → Outcome β} {b : β} :
    (x >>= f) = .ok b ↔ ∃ a, x = .ok a ∧ f a = .ok b := by
  cases x <;> simp

theorem bind_eq_panic {x : Outcome α} {f : α → Outcome β} :
    (x >>= f) = .panic ↔ x = .panic ∨ ∃ a, x = .ok a ∧ f a = .panic := by
  cases x <;> simp

theorem bind_ne_panic {x : Outcome α} {f : α → Outcome β} (hx : x ≠ .panic)
    (hf : ∀ a, x = .ok a → f a ≠ .panic) : (x >>= f) ≠ .panic := fun h =>
  (bind_eq_panic.mp h).elim hx fun ⟨a, ha, h⟩ => hf a ha h

theorem bind_eq_err {x : Outcome α} {f : α → Outcome β} :
    (x >>= f) = .err ↔ x = .err ∨ ∃ a, x = .ok a ∧ f a = .err := by
  cases x <;> simp

theorem bind_ne_err {x : Outcome α} {f : α → Outcome β} (hx : x ≠ .err)
    (hf : ∀ a, x = .ok a → f a ≠ .err) : (x >>= f) ≠ .err := fun h =>
  (bind_eq_err.mp h).elim hx fun ⟨a, ha, h⟩ => hf a ha h

/-- `Option::ok_or`, with the caller's `?`. -/
def ofOption : Option α → Outcome α
  | some a => .ok a
  | none => .err

@[simp] theorem ofOption_some (a : α) : ofOption (some a) = .ok a := rfl

@[simp] theorem ofOption_none : ofOption (none : Option α) = .err := rfl

theorem ofOption_eq_ok {x : Option α} {a : α} : ofOption x = .ok a ↔ x = some a := by
  cases x <;> simp

theorem ofOption_ne_panic (x : Option α) : ofOption x ≠ .panic := by
  cases x <;> simp

/-- No panic, and no error where `w` holds. -/
def Completes (w : Prop) (x : Outcome α) : Prop := x ≠ .panic ∧ (w → x ≠ .err)

variable {w : Prop}

theorem completes_ok (a : α) : Completes w (.ok a) := ⟨by simp, fun _ => by simp⟩

theorem completes_ofOption {x : Option α} (h : w → ∃ a, x = some a) : Completes w (ofOption x) := by
  refine ⟨ofOption_ne_panic x, fun hw => ?_⟩
  obtain ⟨a, rfl⟩ := h hw
  simp

theorem Completes.eq_ok {x : Outcome α} (h : Completes w x) (hw : w) : ∃ a, x = .ok a := by
  cases x with
  | ok a => exact ⟨a, rfl⟩
  | err => exact absurd rfl (h.2 hw)
  | panic => exact absurd rfl h.1

/-- No panic, and `P` of what is returned. -/
def Ensures (P : α → Prop) (x : Outcome α) : Prop := x ≠ .panic ∧ ∀ a, x = .ok a → P a

theorem ensures_ok {P : α → Prop} {a : α} (h : P a) : Ensures P (.ok a) :=
  ⟨by simp, fun _ hb => ok.inj hb ▸ h⟩

theorem ensures_err (P : α → Prop) : Ensures P .err := ⟨by simp, fun _ ha => by simp at ha⟩

theorem ensures_bind {P : β → Prop} {x : Outcome α} {f : α → Outcome β} (hx : x ≠ .panic)
    (hf : ∀ a, x = .ok a → Ensures P (f a)) : Ensures P (x >>= f) := by
  refine ⟨bind_ne_panic hx fun a ha => (hf a ha).1, fun b hb => ?_⟩
  obtain ⟨a, ha, hb⟩ := bind_eq_ok.mp hb
  exact (hf a ha).2 b hb

end Outcome

/-- A call over the state `σ`. -/
def Prog (σ : Type v) (α : Type u) : Type (max u v) := σ → Outcome α × σ

namespace Prog

variable {σ : Type v} {α β : Type u}

instance : Monad (Prog σ) where
  pure a := fun s => (.ok a, s)
  bind x f := fun s => match x s with
    | (.ok a, s') => f a s'
    | (.err, s') => (.err, s')
    | (.panic, s') => (.panic, s')

/-- A call that does not touch the state. -/
def lift (x : Outcome α) : Prog σ α := fun s => (x, s)

instance : MonadLift Outcome (Prog σ) := ⟨lift⟩

/-- What `f` reads off the state. -/
def gets (f : σ → α) : Prog σ α := fun s => (.ok (f s), s)

def modify (f : σ → σ) : Prog σ PUnit := fun s => (.ok ⟨⟩, f s)

@[simp] theorem pure_run (a : α) (s : σ) : (pure a : Prog σ α) s = (.ok a, s) := rfl

@[simp] theorem lift_run (x : Outcome α) (s : σ) : (lift x : Prog σ α) s = (x, s) := rfl

@[simp] theorem liftM_run (x : Outcome α) (s : σ) : (liftM x : Prog σ α) s = (x, s) := rfl

@[simp] theorem gets_run (f : σ → α) (s : σ) : gets f s = (.ok (f s), s) := rfl

@[simp] theorem modify_run (f : σ → σ) (s : σ) : modify f s = (.ok ⟨⟩, f s) := rfl

theorem bind_of_ok {x : Prog σ α} {f : α → Prog σ β} {s m : σ} {a : α} (h : x s = (.ok a, m)) :
    (x >>= f) s = f a m := by
  show (match x s with
    | (.ok a, s') => f a s'
    | (.err, s') => (.err, s')
    | (.panic, s') => (.panic, s')) = _
  rw [h]

theorem bind_of_err {x : Prog σ α} {f : α → Prog σ β} {s m : σ} (h : x s = (.err, m)) :
    (x >>= f) s = (.err, m) := by
  show (match x s with
    | (.ok a, s') => f a s'
    | (.err, s') => (.err, s')
    | (.panic, s') => (.panic, s')) = _
  rw [h]

theorem bind_of_panic {x : Prog σ α} {f : α → Prog σ β} {s m : σ} (h : x s = (.panic, m)) :
    (x >>= f) s = (.panic, m) := by
  show (match x s with
    | (.ok a, s') => f a s'
    | (.err, s') => (.err, s')
    | (.panic, s') => (.panic, s')) = _
  rw [h]

/-- Only what follows a value can make a difference. -/
theorem bind_congr {x : Prog σ α} {f g : α → Prog σ β} {s : σ}
    (h : ∀ a m, x s = (.ok a, m) → f a m = g a m) : (x >>= f) s = (x >>= g) s := by
  rcases hx : x s with ⟨a | _ | _, m⟩
  · rw [bind_of_ok hx, bind_of_ok hx, h a m hx]
  · rw [bind_of_err hx, bind_of_err hx]
  · rw [bind_of_panic hx, bind_of_panic hx]

theorem bind_eq_ok {x : Prog σ α} {f : α → Prog σ β} {s s' : σ} {b : β} :
    (x >>= f) s = (.ok b, s') ↔ ∃ a m, x s = (.ok a, m) ∧ f a m = (.ok b, s') := by
  constructor
  · intro h
    rcases hx : x s with ⟨_ | _ | _, m⟩
    · exact ⟨_, m, rfl, by rwa [bind_of_ok hx] at h⟩
    all_goals
      have h : (match x s with
        | (.ok a, s') => f a s'
        | (.err, s') => (.err, s')
        | (.panic, s') => (.panic, s')) = (.ok b, s') := h
      rw [hx] at h
      cases h
  · rintro ⟨a, m, hx, hf⟩
    rw [bind_of_ok hx, hf]

theorem bind_eq_panic {x : Prog σ α} {f : α → Prog σ β} {s : σ} :
    ((x >>= f) s).1 = .panic ↔ (x s).1 = .panic ∨ ∃ a m, x s = (.ok a, m) ∧ (f a m).1 = .panic := by
  show (match x s with
    | (.ok a, s') => f a s'
    | (.err, s') => (.err, s')
    | (.panic, s') => (.panic, s')).1 = _ ↔ _
  rcases x s with ⟨a | _ | _, m⟩
  · exact ⟨fun h => .inr ⟨a, m, rfl, h⟩, fun h => by
      obtain h | ⟨b, m', hb, h⟩ := h
      · cases h
      · cases hb
        exact h⟩
  · simp
  · simp

/-- A sequence completes if its first part does, and what follows does wherever
the first part returns. -/
theorem completes_bind {w : Prop} {x : Prog σ α} {f : α → Prog σ β} {s : σ}
    (hx : Outcome.Completes w (x s).1) (hf : ∀ a m, x s = (.ok a, m) → Outcome.Completes w (f a m).1) :
    Outcome.Completes w ((x >>= f) s).1 := by
  rcases hr : x s with ⟨a | _ | _, m⟩
  · rw [bind_of_ok hr]
    exact hf a m hr
  · have hbind : ((x >>= f) s).1 = .err := by
      show (match x s with
        | (.ok a, s') => f a s'
        | (.err, s') => (.err, s')
        | (.panic, s') => (.panic, s')).1 = _
      rw [hr]
    rw [hr] at hx
    rw [hbind]
    exact ⟨by simp, fun hw => absurd rfl (hx.2 hw)⟩
  · rw [hr] at hx
    exact absurd rfl hx.1

theorem completes_liftM_bind {w : Prop} {x : Outcome α} {f : α → Prog σ β} {s : σ}
    (hx : Outcome.Completes w x) (hf : ∀ a, x = .ok a → Outcome.Completes w (f a s).1) :
    Outcome.Completes w (((liftM x : Prog σ α) >>= f) s).1 := by
  refine completes_bind hx fun a m h => ?_
  obtain ⟨rfl, rfl⟩ := Prod.mk.inj h
  exact hf a rfl

/-- A lifted outcome at the head of a sequence. -/
theorem liftM_bind_eq_ok {x : Outcome α} {f : α → Prog σ β} {s s' : σ} {b : β} :
    ((liftM x : Prog σ α) >>= f) s = (.ok b, s') ↔ ∃ a, x = .ok a ∧ f a s = (.ok b, s') := by
  rw [bind_eq_ok]
  constructor
  · rintro ⟨a, m, hx, hf⟩
    rw [liftM_run, Prod.mk.injEq] at hx
    obtain ⟨rfl, rfl⟩ := hx
    exact ⟨a, rfl, hf⟩
  · rintro ⟨a, rfl, hf⟩
    exact ⟨a, s, rfl, hf⟩

theorem liftM_bind_ok (a : α) (f : α → Prog σ β) (s : σ) :
    ((liftM (Outcome.ok a) : Prog σ α) >>= f) s = f a s := rfl

@[simp] theorem gets_bind (f : σ → α) (g : α → Prog σ β) (s : σ) :
    (gets f >>= g) s = g (f s) s := rfl

@[simp] theorem modify_bind (f : σ → σ) (g : PUnit → Prog σ β) (s : σ) :
    (modify f >>= g) s = g ⟨⟩ (f s) := rfl

/-- A sequence ends in a state with `Q` if its first part does, and what follows
does wherever the first part returns. -/
theorem bind_state {Q : σ → Prop} {x : Prog σ α} {f : α → Prog σ β} {s : σ} (hx : Q (x s).2)
    (hf : ∀ a m, x s = (.ok a, m) → Q (f a m).2) : Q ((x >>= f) s).2 := by
  show Q (match x s with
    | (.ok a, s') => f a s'
    | (.err, s') => (.err, s')
    | (.panic, s') => (.panic, s')).2
  split <;> rename_i m hm
  · exact hf _ m hm
  · rwa [hm] at hx
  · rwa [hm] at hx

/-- What a sequence returns at its end does not change where it ends. -/
theorem bind_pure_state (x : Prog σ α) (b : β) (s : σ) :
    ((x >>= fun _ => pure b) s).2 = (x s).2 := by
  show (match x s with
    | (.ok a, s') => (.ok b, s')
    | (.err, s') => (.err, s')
    | (.panic, s') => (.panic, s') : Outcome β × σ).2 = _
  split <;> rename_i hm <;> rw [hm]

/-- However it ends, the call takes the state along `R`. -/
def Moves (R : σ → σ → Prop) (x : Prog σ α) : Prop := ∀ s, R s (x s).2

variable {R : σ → σ → Prop}

theorem Moves.pure (hr : ∀ s, R s s) (a : α) : Moves R (Pure.pure a) := hr

theorem Moves.lift (hr : ∀ s, R s s) (x : Outcome α) : Moves R (Prog.lift x) := hr

theorem Moves.liftM (hr : ∀ s, R s s) (x : Outcome α) :
    Moves R (MonadLiftT.monadLift x : Prog σ α) := hr

theorem Moves.gets (hr : ∀ s, R s s) (f : σ → α) : Moves R (Prog.gets f) := hr

theorem Moves.modify {f : σ → σ} (h : ∀ s, R s (f s)) : Moves R (Prog.modify f) := h

theorem Moves.bind (ht : ∀ a b c, R a b → R b c → R a c) {x : Prog σ α} {f : α → Prog σ β}
    (hx : Moves R x) (hf : ∀ a, Moves R (f a)) : Moves R (x >>= f) := by
  refine fun s => bind_state (hx s) fun a m hm => ht _ _ _ (hx s) ?_
  rw [hm]
  exact hf a m

end Prog

end Moonshine.Framework
