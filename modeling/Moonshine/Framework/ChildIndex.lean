import Mathlib.Data.List.Nodup
import Mathlib.Logic.Function.Basic
import Moonshine.Framework.HashMap

/-!
# An index of children

A map from parents to lists of children, beside a function that gives each child
its parent, if it has one. `Inverts` says that the one is the inverse of the
other. It is kept where a child leaves its parent (`Inverts.leave`), a parent
leaving the map with its last child, and where a child without a parent enters
under one (`Inverts.enter`).
-/

namespace Moonshine.Framework

variable {κ α : Type} [DecidableEq κ]

def childrenOf (children : HashMap κ (List α)) (p : κ) : List α := (children.get? p).getD []

structure Inverts (children : HashMap κ (List α)) (parent : α → Option κ) : Prop where
  mem_iff : ∀ p a, a ∈ childrenOf children p ↔ parent a = some p
  nodup : ∀ p, (childrenOf children p).Nodup
  nonempty : ∀ p, children.get? p ≠ some []

def addChild (children : HashMap κ (List α)) (p : κ) (a : α) : HashMap κ (List α) :=
  children.insert p (childrenOf children p ++ [a])

theorem inverts_empty : Inverts (∅ : HashMap κ (List α)) fun _ => none where
  mem_iff _ _ := by
    constructor
    · intro h
      cases h
    · intro h
      cases h
  nodup _ := List.nodup_nil
  nonempty _ := by
    intro h
    cases h

theorem childrenOf_addChild (children : HashMap κ (List α)) (p q : κ) (a : α) :
    childrenOf (addChild children p a) q = if q = p then childrenOf children p ++ [a] else childrenOf children q := by
  rw [childrenOf, addChild, HashMap.get?_insert]
  split <;> rfl

variable [DecidableEq α]

def dropChild (children : HashMap κ (List α)) (p : κ) (a : α) : HashMap κ (List α) :=
  match children.get? p with
  | some cs =>
    let cs := cs.filter (· ≠ a)
    if cs.isEmpty then children.erase p else children.insert p cs
  | none => children

theorem get?_dropChild (children : HashMap κ (List α)) (p q : κ) (a : α) :
    (dropChild children p a).get? q =
      if q = p then ((children.get? p).map (·.filter (· ≠ a))).filter (!·.isEmpty) else children.get? q := by
  unfold dropChild
  cases hp : children.get? p with
  | none =>
    dsimp only
    split
    · subst q
      exact hp
    · rfl
  | some cs =>
    dsimp only
    by_cases he : (cs.filter (· ≠ a)).isEmpty
    · rw [if_pos he, HashMap.get?_erase, Option.map_some, Option.filter_some]
      simp only [he, Bool.not_true, Bool.false_eq_true, if_false]
    · rw [if_neg he, HashMap.get?_insert, Option.map_some, Option.filter_some]
      simp only [he, Bool.not_false, if_true]

theorem childrenOf_dropChild (children : HashMap κ (List α)) (p q : κ) (a : α) :
    childrenOf (dropChild children p a) q =
      if q = p then (childrenOf children p).filter (· ≠ a) else childrenOf children q := by
  rw [childrenOf, get?_dropChild]
  by_cases h : q = p
  · rw [if_pos h, if_pos h, childrenOf]
    cases children.get? p with
    | none => rfl
    | some cs =>
      rw [Option.map_some, Option.filter_some]
      by_cases he : (cs.filter (· ≠ a)).isEmpty
      · simp only [he, Bool.not_true, Bool.false_eq_true, if_false]
        exact (List.isEmpty_iff.mp he).symm
      · simp only [he, Bool.not_false, if_true, Option.getD_some]
  · rw [if_neg h, if_neg h]
    rfl

variable {children : HashMap κ (List α)} {parent : α → Option κ} {p : κ} {a : α}

/-- A child leaves its parent. -/
theorem Inverts.drop (h : Inverts children parent) (hp : parent a = some p) :
    Inverts (dropChild children p a) (Function.update parent a none) where
  mem_iff q b := by
    rw [childrenOf_dropChild]
    rcases eq_or_ne b a with rfl | hb
    · rw [Function.update_self]
      refine iff_of_false ?_ (by simp)
      split
      · simp
      · rename_i hq
        rw [h.mem_iff, hp]
        exact fun heq => hq (Option.some.inj heq).symm
    · rw [Function.update_of_ne hb, ← h.mem_iff]
      split
      · subst q
        simp [hb]
      · rfl
  nodup q := by
    rw [childrenOf_dropChild]
    split
    · exact (h.nodup p).filter _
    · exact h.nodup q
  nonempty q := by
    rw [get?_dropChild]
    split
    · intro heq
      have := (Option.filter_eq_some_iff.mp heq).2
      simp at this
    · exact h.nonempty q

/-- A child without a parent gets one. -/
theorem Inverts.add (h : Inverts children parent) (ha : parent a = none) (p : κ) :
    Inverts (addChild children p a) (Function.update parent a (some p)) where
  mem_iff q b := by
    rw [childrenOf_addChild]
    rcases eq_or_ne b a with rfl | hb
    · rw [Function.update_self]
      split
      · subst q
        simp
      · rename_i hq
        rw [h.mem_iff, ha]
        exact iff_of_false (by simp) fun heq => hq (Option.some.inj heq).symm
    · rw [Function.update_of_ne hb, ← h.mem_iff]
      split
      · subst q
        simp [hb]
      · rfl
  nodup q := by
    rw [childrenOf_addChild]
    split
    · refine List.nodup_append.mpr ⟨h.nodup p, List.nodup_singleton a, ?_⟩
      rintro b hb c hc rfl
      obtain rfl := List.mem_singleton.mp hc
      rw [h.mem_iff, ha] at hb
      cases hb
    · exact h.nodup q
  nonempty q := by
    rw [addChild, HashMap.get?_insert]
    split
    · simp
    · exact h.nonempty q

def leaveParent (children : HashMap κ (List α)) (p : Option κ) (a : α) : HashMap κ (List α) :=
  match p with
  | some p => dropChild children p a
  | none => children

def enterParent (children : HashMap κ (List α)) (p : Option κ) (a : α) : HashMap κ (List α) :=
  match p with
  | some p => addChild children p a
  | none => children

theorem Inverts.leave (h : Inverts children parent) (a : α) :
    Inverts (leaveParent children (parent a) a) (Function.update parent a none) := by
  cases hp : parent a with
  | none =>
    have hsame : Function.update parent a none = parent := by rw [← hp, Function.update_eq_self]
    rw [hsame]
    exact h
  | some p => exact h.drop hp

theorem Inverts.enter (h : Inverts children parent) (ha : parent a = none) (p : Option κ) :
    Inverts (enterParent children p a) (Function.update parent a p) := by
  cases p with
  | none =>
    have hsame : Function.update parent a none = parent := by rw [← ha, Function.update_eq_self]
    rw [hsame]
    exact h
  | some p => exact h.add ha p

/-- A child goes from its parent to another. -/
theorem Inverts.move (h : Inverts children parent) (a : α) (p : Option κ) :
    Inverts (enterParent (leaveParent children (parent a) a) p a) (Function.update parent a p) := by
  have := (h.leave a).enter (Function.update_self a none parent) p
  rwa [Function.update_idem] at this

end Moonshine.Framework
