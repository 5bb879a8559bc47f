import Mathlib.Data.List.Forall2

/-!
# The words of a shell line

`split` is the word splitting of POSIX: blanks end words, `#` at the start of one begins a
comment, and quotes and backslashes take from the next characters what they mean. A line is
read by one `step` a character. A `form` reads as a word (`Reads`) when, begun between two words,
it leaves the reader in a word that is so far this one; forms with a space between them then
split into their words (`split_join`). A word in double quotes reads as itself (`reads_quote`),
and so does one that has no special character (`reads_plain`).
-/

namespace Moonshine.Framework.Shell

inductive Mode
  | gap | comment | bare | escape | single | double | doubleEscape
  deriving DecidableEq, Repr

structure State where
  words : List (List Char)
  word : List Char
  mode : Mode

def isBlank (c : Char) : Bool := c = ' ' || c = '\t' || c = '\n'

/-- The characters a backslash escapes in double quotes. -/
def isEscaped (c : Char) : Bool := c = '$' || c = '`' || c = '"' || c = '\\'

namespace State

def start : State := ⟨[], [], .gap⟩

def push (s : State) (mode : Mode) (cs : List Char) : State := { s with word := s.word ++ cs, mode }

/-- A character of a word that is outside of quotes. -/
def bare (s : State) (c : Char) : State :=
  if c = '"' then { s with mode := .double }
  else if c = '\'' then { s with mode := .single }
  else if c = '\\' then { s with mode := .escape }
  else s.push .bare [c]

def step (s : State) (c : Char) : State :=
  match s.mode with
  | .gap => if isBlank c then s else if c = '#' then { s with mode := .comment } else s.bare c
  | .comment => if c = '\n' then { s with mode := .gap } else s
  | .bare => if isBlank c then ⟨s.words ++ [s.word], [], .gap⟩ else s.bare c
  | .escape => if c = '\n' then { s with mode := .bare } else s.push .bare [c]
  | .single => if c = '\'' then { s with mode := .bare } else s.push .single [c]
  | .double =>
    if c = '"' then { s with mode := .bare }
    else if c = '\\' then { s with mode := .doubleEscape }
    else s.push .double [c]
  | .doubleEscape =>
    if isEscaped c then s.push .double [c]
    else if c = '\n' then { s with mode := .double }
    else s.push .double ['\\', c]

def run (s : State) (text : List Char) : State := text.foldl step s

/-- A quote that is not closed, or a backslash at the end, is an error. -/
def finish (s : State) : Option (List (List Char)) :=
  match s.mode with
  | .gap => some s.words
  | .comment => some s.words
  | .bare => some (s.words ++ [s.word])
  | _ => none

@[simp] theorem run_nil (s : State) : s.run [] = s := rfl

@[simp] theorem run_cons (s : State) (c : Char) (text : List Char) : s.run (c :: text) = (s.step c).run text := rfl

theorem run_append (s : State) (text text' : List Char) : s.run (text ++ text') = (s.run text).run text' :=
  List.foldl_append

end State

open State

/-- The words of a line, `none` for one that ends too early. -/
def split (text : List Char) : Option (List (List Char)) := (start.run text).finish

def Reads (form word : List Char) : Prop := ∀ words, run ⟨words, [], .gap⟩ form = ⟨words, word, .bare⟩

/-- Forms with a space between them. -/
def join (forms : List (List Char)) : List Char := List.intercalate [' '] forms

@[simp] theorem join_nil : join [] = [] := rfl

@[simp] theorem join_singleton (form : List Char) : join [form] = form := List.intercalate_singleton

@[simp] theorem join_cons_cons (form form' : List Char) (forms : List (List Char)) :
    join (form :: form' :: forms) = form ++ ' ' :: join (form' :: forms) := by
  rw [join, List.intercalate_cons_cons, List.append_assoc, List.singleton_append]
  rfl

theorem join_append_singleton {forms : List (List Char)} (h : forms ≠ []) (form : List Char) :
    join (forms ++ [form]) = join forms ++ ' ' :: form := by
  induction forms with
  | nil => exact absurd rfl h
  | cons form' forms ih =>
    cases forms with
    | nil => simp
    | cons form'' forms =>
      have hrest := ih (List.cons_ne_nil form'' forms)
      rw [List.cons_append] at hrest
      rw [List.cons_append, List.cons_append, join_cons_cons, hrest, join_cons_cons, List.append_assoc,
        List.cons_append]

theorem reverse_join (forms : List (List Char)) : (join forms).reverse = join (forms.map List.reverse).reverse := by
  induction forms with
  | nil => rfl
  | cons form forms ih =>
    cases forms with
    | nil => simp
    | cons form' forms =>
      have hne : ((form' :: forms).map List.reverse).reverse ≠ [] := by simp
      have hlast : ((form :: form' :: forms).map List.reverse).reverse =
          ((form' :: forms).map List.reverse).reverse ++ [form.reverse] := List.reverse_cons
      rw [join_cons_cons, List.reverse_append, List.reverse_cons, ih, hlast, join_append_singleton hne,
        List.append_assoc, List.singleton_append]

private theorem finish_join {forms words : List (List Char)} (h : List.Forall₂ Reads forms words)
    (before : List (List Char)) : (run ⟨before, [], .gap⟩ (join forms)).finish = some (before ++ words) := by
  induction h generalizing before with
  | nil => simp [finish]
  | @cons form word forms words hform hforms ih =>
    cases hforms with
    | nil => simp [hform before, finish]
    | @cons form' word' forms words hform' hforms =>
      rw [join_cons_cons, run_append, hform before, run_cons]
      have hstep : step ⟨before, word, .bare⟩ ' ' = ⟨before ++ [word], [], .gap⟩ := rfl
      rw [hstep, ih, List.append_assoc]
      rfl

theorem split_join {forms words : List (List Char)} (h : List.Forall₂ Reads forms words) :
    split (join forms) = some words :=
  finish_join h []

def quoteChar (c : Char) : List Char := if isEscaped c then ['\\', c] else [c]

/-- A word in double quotes. -/
def quote (word : List Char) : List Char := '"' :: (word.flatMap quoteChar ++ ['"'])

theorem run_quoteChar (words : List (List Char)) (word : List Char) (c : Char) :
    run ⟨words, word, .double⟩ (quoteChar c) = ⟨words, word ++ [c], .double⟩ := by
  unfold quoteChar
  by_cases hc : isEscaped c
  · have hfirst : step ⟨words, word, .double⟩ '\\' = ⟨words, word, .doubleEscape⟩ := rfl
    rw [if_pos hc, run_cons, hfirst, run_cons]
    simp [step, hc, push]
  · have hquote : c ≠ '"' := fun h => hc (h ▸ rfl)
    have hslash : c ≠ '\\' := fun h => hc (h ▸ rfl)
    rw [if_neg hc, run_cons]
    simp [step, hquote, hslash, push]

theorem run_quoteChars (words : List (List Char)) (word cs : List Char) :
    run ⟨words, word, .double⟩ (cs.flatMap quoteChar) = ⟨words, word ++ cs, .double⟩ := by
  induction cs generalizing word with
  | nil => simp
  | cons c cs ih => rw [List.flatMap_cons, run_append, run_quoteChar, ih, List.append_assoc, List.singleton_append]

theorem reads_quote (word : List Char) : Reads (quote word) word := by
  intro words
  have hopen : step ⟨words, [], .gap⟩ '"' = ⟨words, [], .double⟩ := rfl
  rw [quote, run_cons, hopen, run_append, run_quoteChars, List.nil_append]
  rfl

/-- The characters that mean something outside of quotes. -/
def special : List Char := [' ', '\t', '\n', '"', '\'', '\\', '#']

theorem step_plain {c : Char} (hc : c ∉ special) (words : List (List Char)) (word : List Char) :
    step ⟨words, word, .bare⟩ c = ⟨words, word ++ [c], .bare⟩ := by
  simp only [special, List.mem_cons, List.not_mem_nil, or_false, not_or] at hc
  simp [step, isBlank, bare, push, hc]

theorem run_plain {cs : List Char} (hcs : ∀ c ∈ cs, c ∉ special) (words : List (List Char)) (word : List Char) :
    run ⟨words, word, .bare⟩ cs = ⟨words, word ++ cs, .bare⟩ := by
  induction cs generalizing word with
  | nil => simp
  | cons c cs ih =>
    rw [run_cons, step_plain (hcs c List.mem_cons_self), ih fun d hd => hcs d (List.mem_cons_of_mem c hd),
      List.append_assoc, List.singleton_append]

theorem reads_plain {word : List Char} (hne : word ≠ []) (hword : ∀ c ∈ word, c ∉ special) :
    Reads word word := by
  intro words
  cases word with
  | nil => exact absurd rfl hne
  | cons c cs =>
    have hc := hword c List.mem_cons_self
    have hstep : step ⟨words, [], .gap⟩ c = ⟨words, [c], .bare⟩ := by
      simp only [special, List.mem_cons, List.not_mem_nil, or_false, not_or] at hc
      simp [step, isBlank, bare, push, hc]
    rw [run_cons, hstep, run_plain fun d hd => hword d (List.mem_cons_of_mem c hd)]
    rfl

end Moonshine.Framework.Shell
