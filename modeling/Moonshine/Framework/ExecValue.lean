import Moonshine.Framework.Shell

/-!
# Command lines in desktop entries

How the Desktop Entry rules write a vector of arguments as the value of an `Exec` key: an
argument that has a reserved character, or none at all, is quoted, any other may be; `%` is doubled; the
arguments stand with a space between them, and the line is escaped as a string value. An
`Argument` carries that it may be written the way it is. A shell reads the line as the
arguments with `%` still doubled (`split_commandLine`). A reader that first strips characters
from the ends of the line reads the line of some other arguments, the same ones or ones with
fewer characters (`exists_trimmed`).
-/

namespace Moonshine.Framework.ExecValue

open Shell

/-- The characters an argument is quoted for. -/
def reserved : List Char :=
  [' ', '\t', '\n', '"', '\'', '\\', '>', '<', '~', '|', '&', ';', '$', '*', '?', '#', '(', ')', '`']

structure Argument where
  text : List Char
  quoted : Bool
  plain : quoted = false → text ≠ [] ∧ ∀ c ∈ text, c ∉ reserved

/-- Any text can be quoted. -/
def Argument.quote (text : List Char) : Argument := ⟨text, true, Bool.noConfusion⟩

def doubleChar (c : Char) : List Char := if c = '%' then ['%', '%'] else [c]

def doubled (text : List Char) : List Char := text.flatMap doubleChar

def Argument.written (a : Argument) : List Char := doubled (if a.quoted then Shell.quote a.text else a.text)

def commandLine (args : List Argument) : List Char := join (args.map Argument.written)

/-- A character of a string value. A space may be written either way. -/
def escapeChar (spaces : Bool) (c : Char) : List Char :=
  if c = '\\' then ['\\', '\\']
  else if c = '\n' then ['\\', 'n']
  else if c = '\t' then ['\\', 't']
  else if c = '\r' then ['\\', 'r']
  else if c = ' ' && spaces then ['\\', 's']
  else [c]

def stringValue (spaces : Bool) (text : List Char) : List Char := text.flatMap (escapeChar spaces)

@[simp] theorem doubled_nil : doubled [] = [] := rfl

@[simp] theorem doubled_cons (c : Char) (text : List Char) :
    doubled (c :: text) = doubleChar c ++ doubled text := rfl

@[simp] theorem doubled_append (text text' : List Char) : doubled (text ++ text') = doubled text ++ doubled text' :=
  List.flatMap_append

@[simp] theorem doubled_eq_nil {text : List Char} : doubled text = [] ↔ text = [] := by
  cases text with
  | nil => simp
  | cons c text =>
    by_cases hc : c = '%'
    · simp [doubleChar, hc]
    · simp [doubleChar, hc]

theorem mem_doubled {c : Char} {text : List Char} : c ∈ doubled text ↔ c ∈ text := by
  have hmem (d : Char) : c ∈ doubleChar d ↔ c = d := by
    by_cases hd : d = '%'
    · simp [doubleChar, hd]
    · simp [doubleChar, hd]
  simp [doubled, List.mem_flatMap, hmem]

theorem doubled_quoteChar (c : Char) : doubled (quoteChar c) = (doubleChar c).flatMap quoteChar := by
  by_cases hc : c = '%'
  · subst hc
    rfl
  · have hquote : doubled (quoteChar c) = quoteChar c := by
      by_cases he : isEscaped c
      · simp [quoteChar, he, doubleChar, hc]
      · simp [quoteChar, he, doubleChar, hc]
    rw [hquote, doubleChar, if_neg hc, List.flatMap_singleton]

/-- Quoting and doubling commute. -/
theorem doubled_quote (text : List Char) : doubled (Shell.quote text) = Shell.quote (doubled text) := by
  have hchars : doubled (text.flatMap quoteChar) = (doubled text).flatMap quoteChar := by
    induction text with
    | nil => rfl
    | cons c text ih =>
      rw [List.flatMap_cons, doubled_append, ih, doubled_quoteChar, doubled_cons, List.flatMap_append]
  rw [Shell.quote, doubled_cons, doubled_append, hchars]
  rfl

theorem reads_written (a : Argument) : Reads a.written (doubled a.text) := by
  obtain ⟨text, quoted, hplain⟩ := a
  cases quoted with
  | true =>
    show Reads (doubled (Shell.quote text)) (doubled text)
    rw [doubled_quote]
    exact reads_quote (doubled text)
  | false =>
    obtain ⟨hne, hchars⟩ := hplain rfl
    have hspecial : special ⊆ reserved := by decide
    exact reads_plain (fun h => hne (doubled_eq_nil.mp h)) fun c hc h => hchars c (mem_doubled.mp hc) (hspecial h)

theorem split_commandLine (args : List Argument) :
    split (commandLine args) = some (args.map fun a => doubled a.text) := by
  apply split_join
  rw [List.forall₂_map_left_iff, List.forall₂_map_right_iff, List.forall₂_same]
  exact fun a _ => reads_written a

theorem commandLine_eq_nil {args : List Argument} (h : commandLine args = []) : args = [] := by
  have hsplit := split_commandLine args
  rw [h] at hsplit
  exact List.map_eq_nil_iff.mp (Option.some.inj hsplit).symm

theorem written_ne_nil (a : Argument) : a.written ≠ [] := by
  obtain ⟨text, quoted, hplain⟩ := a
  cases quoted with
  | true => simp [Argument.written, Shell.quote, doubleChar]
  | false => exact fun h => (hplain rfl).1 (doubled_eq_nil.mp h)

/-- The characters of all arguments. -/
def size : List Argument → Nat
  | [] => 0
  | a :: args => a.text.length + size args

theorem size_append (args args' : List Argument) : size (args ++ args') = size args + size args' := by
  induction args with
  | nil => exact (Nat.zero_add _).symm
  | cons a args ih => rw [List.cons_append, size, size, ih, Nat.add_assoc]

theorem size_reverse (args : List Argument) : size args.reverse = size args := by
  induction args with
  | nil => rfl
  | cons a args ih =>
    rw [List.reverse_cons, size_append, ih, size, size, size]
    omega

/-- A list of forms, its characters at the front gone as far as they are `p`. -/
def dropForms (p : Char → Bool) : List (List Char) → List (List Char)
  | [] => []
  | form :: forms =>
    match form.dropWhile p with
    | [] => dropForms p forms
    | c :: cs => (c :: cs) :: forms

variable {p : Char → Bool}

theorem dropWhile_join (hspace : p ' ') (forms : List (List Char)) :
    (join forms).dropWhile p = join (dropForms p forms) := by
  induction forms with
  | nil => rfl
  | cons form forms ih =>
    cases forms with
    | nil =>
      rw [join_singleton, dropForms]
      cases h : form.dropWhile p with
      | nil => rfl
      | cons c cs => rw [join_singleton]
    | cons form' forms =>
      rw [join_cons_cons, List.dropWhile_append, dropForms]
      cases h : form.dropWhile p with
      | nil => simp [hspace, ih]
      | cons c cs => simp

/-- `shape` writes arguments so that stripping one leaves nothing of it or another argument's
form, which is shorter if anything is gone. -/
def Strips (p : Char → Bool) (shape : Argument → List Char) : Prop :=
  ∀ a, (shape a).dropWhile p = [] ∧ 0 < a.text.length ∨
    ∃ a', (shape a).dropWhile p = shape a' ∧ shape a' ≠ [] ∧ (a' = a ∨ a'.text.length < a.text.length)

theorem Strips.exists_dropForms {shape : Argument → List Char} (h : Strips p shape) (args : List Argument) :
    ∃ args', dropForms p (args.map shape) = args'.map shape ∧ (args' = args ∨ size args' < size args) := by
  induction args with
  | nil => exact ⟨[], rfl, .inl rfl⟩
  | cons a args ih =>
    rcases h a with ⟨hnil, hpos⟩ | ⟨a', hdrop, hne, hsmall⟩
    · obtain ⟨args', hforms, hsize⟩ := ih
      refine ⟨args', by simp [dropForms, hnil, hforms], .inr ?_⟩
      have hle : size args' ≤ size args := by
        rcases hsize with rfl | hlt
        · exact Nat.le_refl _
        · exact Nat.le_of_lt hlt
      simp only [size] at hle ⊢
      omega
    · obtain ⟨c, cs, hc⟩ := List.exists_cons_of_ne_nil hne
      refine ⟨a' :: args, by simp [dropForms, hdrop, hc], ?_⟩
      rcases hsmall with rfl | hlt
      · exact .inl rfl
      · right
        simp only [size]
        omega

theorem dropWhile_doubled (hpercent : p '%' = false) (text : List Char) :
    (doubled text).dropWhile p = doubled (text.dropWhile p) := by
  induction text with
  | nil => rfl
  | cons c text ih =>
    by_cases hc : c = '%'
    · subst hc
      simp [doubleChar, hpercent]
    · by_cases hp : p c
      · simp [doubleChar, hc, hp, ih]
      · simp [doubleChar, hc, hp]

theorem reverse_doubled (text : List Char) : (doubled text).reverse = doubled text.reverse := by
  induction text with
  | nil => rfl
  | cons c text ih =>
    have hchar : (doubleChar c).reverse = doubled [c] := by
      by_cases hc : c = '%'
      · simp [doubleChar, hc]
      · simp [doubleChar, hc]
    rw [doubled_cons, List.reverse_append, ih, hchar, List.reverse_cons, doubled_append]

theorem length_dropWhile_lt {text : List Char} (h : text.dropWhile p ≠ text) :
    (text.dropWhile p).length < text.length := by
  have hsuffix : text.dropWhile p <:+ text := List.dropWhile_suffix p
  exact Nat.lt_of_le_of_ne hsuffix.length_le fun heq => h (hsuffix.eq_of_length heq)

theorem dropWhile_eq_self_iff {text : List Char} :
    text.dropWhile p = text ↔ ∀ c ∈ text.head?, p c = false := by
  cases text with
  | nil => simp
  | cons c text =>
    by_cases hc : p c
    · have hlength : (text.dropWhile p).length < (c :: text).length :=
        Nat.lt_succ_of_le (List.dropWhile_suffix p).length_le
      have hne : text.dropWhile p ≠ c :: text := fun h => Nat.lt_irrefl _ (h ▸ hlength)
      simp [hc, hne]
    · simp [hc]

/-- A way of reading a text: forwards or backwards. -/
structure Reading (f : List Char → List Char) : Prop where
  twice : ∀ text, f (f text) = text
  mem : ∀ c text, c ∈ f text → c ∈ text
  length : ∀ text, (f text).length = text.length
  comm : ∀ text, f (doubled text) = doubled (f text)
  opens : ∀ text, (f (doubled (Shell.quote text))).head? = some '"'

theorem Reading.strips {f : List Char → List Char} (hf : Reading f) (hquote : p '"' = false)
    (hpercent : p '%' = false) : Strips p fun a => f a.written := by
  rintro ⟨text, quoted, hplain⟩
  cases quoted with
  | true =>
    have hkept : (f (doubled (Shell.quote text))).dropWhile p = f (doubled (Shell.quote text)) := by
      apply dropWhile_eq_self_iff.mpr
      intro c hc
      rw [hf.opens] at hc
      exact Option.some.inj hc ▸ hquote
    have hopens := hf.opens text
    have hne : f (doubled (Shell.quote text)) ≠ [] := by
      intro hnil
      rw [hnil] at hopens
      cases hopens
    exact .inr ⟨⟨text, true, hplain⟩, hkept, hne, .inl rfl⟩
  | false =>
    obtain ⟨hne, hchars⟩ := hplain rfl
    have hdrop : (f (doubled text)).dropWhile p = doubled ((f text).dropWhile p) := by
      rw [hf.comm, dropWhile_doubled hpercent]
    by_cases hnil : (f text).dropWhile p = []
    · refine .inl ⟨?_, List.length_pos_iff.mpr hne⟩
      show (f (doubled text)).dropWhile p = []
      rw [hdrop, hnil]
      rfl
    · have hne' : f ((f text).dropWhile p) ≠ [] := by
        rwa [Ne, ← List.length_eq_zero_iff, hf.length, List.length_eq_zero_iff]
      have hrest : ∀ c ∈ f ((f text).dropWhile p), c ∉ reserved := fun c hc =>
        hchars c (hf.mem c text ((List.dropWhile_suffix p).subset (hf.mem c _ hc)))
      have hshape : f (doubled (f ((f text).dropWhile p))) = doubled ((f text).dropWhile p) := by
        rw [hf.comm, hf.twice]
      refine .inr ⟨⟨f ((f text).dropWhile p), false, fun _ => ⟨hne', hrest⟩⟩, hdrop.trans hshape.symm, ?_, ?_⟩
      · intro h
        exact hnil (doubled_eq_nil.mp (hshape.symm.trans h))
      · by_cases hsame : (f text).dropWhile p = f text
        · left
          simp only [hsame, hf.twice]
        · right
          show (f ((f text).dropWhile p)).length < text.length
          rw [hf.length, ← hf.length text]
          exact length_dropWhile_lt hsame

theorem reading_id : Reading id where
  twice _ := rfl
  mem _ _ h := h
  length _ := rfl
  comm _ := rfl
  opens _ := rfl

theorem reading_reverse : Reading List.reverse where
  twice := List.reverse_reverse
  mem _ _ h := List.mem_reverse.mp h
  length _ := List.length_reverse
  comm := reverse_doubled
  opens text := by
    rw [List.head?_reverse, Shell.quote, doubled_cons, doubled_append, ← List.append_assoc]
    exact List.getLast?_concat

/-- `p` characters gone from both ends. -/
def trimmed (p : Char → Bool) (text : List Char) : List Char := ((text.dropWhile p).reverse.dropWhile p).reverse

theorem trimmed_eq_self_iff {text : List Char} :
    trimmed p text = text ↔ (∀ c ∈ text.head?, p c = false) ∧ ∀ c ∈ text.getLast?, p c = false := by
  rw [← dropWhile_eq_self_iff, ← List.head?_reverse, ← dropWhile_eq_self_iff]
  constructor
  · intro h
    have hlength := congrArg List.length h
    have hback : ((text.dropWhile p).reverse.dropWhile p).length ≤ (text.dropWhile p).reverse.length :=
      (List.dropWhile_suffix p).length_le
    simp only [trimmed, List.length_reverse] at hlength hback
    have hfront : text.dropWhile p = text := by
      by_contra hne
      have hlt := length_dropWhile_lt hne
      omega
    rw [trimmed, hfront] at h
    exact ⟨hfront, List.reverse_eq_iff.mp h⟩
  · rintro ⟨hfront, hback⟩
    rw [trimmed, hfront, hback, List.reverse_reverse]

theorem mem_head?_commandLine {args : List Argument} {c : Char} (hc : c ∈ (commandLine args).head?) :
    ∃ a ∈ args, c ∈ a.written.head? := by
  cases args with
  | nil => cases hc
  | cons a args =>
    refine ⟨a, List.mem_cons_self, ?_⟩
    obtain ⟨d, cs, hwritten⟩ := List.exists_cons_of_ne_nil (written_ne_nil a)
    cases args with
    | nil => simpa [commandLine] using hc
    | cons a' args => simpa [commandLine, hwritten] using hc

theorem mem_getLast?_commandLine {args : List Argument} {c : Char} (hc : c ∈ (commandLine args).getLast?) :
    ∃ a ∈ args, c ∈ a.written.getLast? := by
  rcases List.eq_nil_or_concat args with rfl | ⟨before, a, rfl⟩
  · cases hc
  · refine ⟨a, by simp, ?_⟩
    rw [commandLine, List.concat_eq_append, List.map_append, List.map_singleton] at hc
    by_cases hbefore : before.map Argument.written = []
    · simpa [hbefore] using hc
    · rw [join_append_singleton hbefore, List.getLast?_append, List.getLast?_cons] at hc
      simpa [List.getLast?_eq_some_getLast (written_ne_nil a)] using hc

/-- Quotes at both ends keep the line from being stripped. -/
theorem trimmed_quoted (hquote : p '"' = false) {args : List Argument} (h : ∀ a ∈ args, a.quoted = true) :
    trimmed p (commandLine args) = commandLine args := by
  have hends (a : Argument) (ha : a ∈ args) : a.written.head? = some '"' ∧ a.written.getLast? = some '"' := by
    have hwritten : a.written = '"' :: doubled (a.text.flatMap quoteChar) ++ ['"'] := by
      simp [Argument.written, h a ha, Shell.quote, doubleChar]
    rw [hwritten, List.getLast?_concat]
    exact ⟨rfl, rfl⟩
  rw [trimmed_eq_self_iff]
  constructor
  · intro c hc
    obtain ⟨a, ha, hhead⟩ := mem_head?_commandLine hc
    rw [(hends a ha).1] at hhead
    exact Option.some.inj hhead ▸ hquote
  · intro c hc
    obtain ⟨a, ha, hlast⟩ := mem_getLast?_commandLine hc
    rw [(hends a ha).2] at hlast
    exact Option.some.inj hlast ▸ hquote

/-- A character stands as itself or as a backslash and a letter. -/
theorem escapeChar_cases (spaces : Bool) (c : Char) :
    escapeChar spaces c = [c] ∨ ∃ d ∈ ['\\', 'n', 't', 'r', 's'], escapeChar spaces c = ['\\', d] := by
  unfold escapeChar
  by_cases hslash : c = '\\'
  · exact .inr ⟨'\\', by decide, if_pos hslash⟩
  by_cases hn : c = '\n'
  · exact .inr ⟨'n', by decide, by simp [hn]⟩
  by_cases ht : c = '\t'
  · exact .inr ⟨'t', by decide, by simp [ht]⟩
  by_cases hr : c = '\r'
  · exact .inr ⟨'r', by decide, by simp [hr]⟩
  by_cases hs : c = ' ' && spaces
  · exact .inr ⟨'s', by decide, by simp [hslash, hn, ht, hr, hs]⟩
  · exact .inl (by simp [hslash, hn, ht, hr, hs])

/-- A value is on one line. -/
theorem newline_not_mem_stringValue (spaces : Bool) (text : List Char) : '\n' ∉ stringValue spaces text := by
  intro hmem
  obtain ⟨c, -, hc⟩ := List.mem_flatMap.mp hmem
  by_cases hn : c = '\n'
  · subst hn
    exact absurd hc (show '\n' ∉ ['\\', 'n'] by decide)
  · have hescapes : '\n' ∉ ['\\', 'n', 't', 'r', 's'] := by decide
    rcases escapeChar_cases spaces c with hself | ⟨d, hd, hescape⟩
    · rw [hself, List.mem_singleton] at hc
      exact hn hc.symm
    · rw [hescape] at hc
      rcases List.mem_cons.mp hc with h | h
      · exact absurd h (by decide)
      · exact hescapes (List.mem_singleton.mp h ▸ hd)

/-- A value keeps its ends where its line does. -/
theorem trimmed_stringValue (hescapes : ∀ c ∈ ['\\', 'n', 't', 'r', 's'], p c = false) (spaces : Bool)
    {text : List Char} (h : trimmed p text = text) :
    trimmed p (stringValue spaces text) = stringValue spaces text := by
  obtain ⟨hfront, hback⟩ := trimmed_eq_self_iff.mp h
  rw [trimmed_eq_self_iff]
  constructor
  · intro d hd
    cases text with
    | nil => cases hd
    | cons c text =>
      have hcons : stringValue spaces (c :: text) = escapeChar spaces c ++ stringValue spaces text := rfl
      rw [hcons] at hd
      rcases escapeChar_cases spaces c with hself | ⟨e, -, hescape⟩
      · rw [hself] at hd
        exact Option.some.inj hd ▸ hfront c rfl
      · rw [hescape] at hd
        exact Option.some.inj hd ▸ hescapes '\\' (by decide)
  · intro d hd
    rcases List.eq_nil_or_concat text with rfl | ⟨before, c, rfl⟩
    · cases hd
    · have hconcat : stringValue spaces (before.concat c) = stringValue spaces before ++ escapeChar spaces c := by
        simp [stringValue]
      rw [hconcat] at hd
      rcases escapeChar_cases spaces c with hself | ⟨e, he, hescape⟩
      · rw [hself, List.getLast?_concat] at hd
        exact Option.some.inj hd ▸ hback c (by simp)
      · rw [hescape, List.append_cons, List.getLast?_concat] at hd
        exact Option.some.inj hd ▸ hescapes e he

theorem exists_trimmed (hspace : p ' ') (hquote : p '"' = false) (hpercent : p '%' = false) (args : List Argument) :
    ∃ args', trimmed p (commandLine args) = commandLine args' ∧ (args' = args ∨ size args' < size args) := by
  have hfrontwards : Strips p Argument.written := reading_id.strips hquote hpercent
  obtain ⟨front, hfront, hsize⟩ := hfrontwards.exists_dropForms args
  obtain ⟨back, hback, hsize'⟩ := (reading_reverse.strips hquote hpercent).exists_dropForms front.reverse
  have hline : trimmed p (commandLine args) = commandLine back.reverse := by
    have hreverse : (front.map Argument.written).map List.reverse = front.map fun a => a.written.reverse :=
      List.map_map
    have hreverse' : (back.map fun a => a.written.reverse).map List.reverse = back.map Argument.written := by
      simp [Function.comp_def]
    rw [trimmed, commandLine, dropWhile_join hspace, hfront, reverse_join, hreverse, ← List.map_reverse,
      dropWhile_join hspace, hback, reverse_join, hreverse', ← List.map_reverse]
    rfl
  refine ⟨back.reverse, hline, ?_⟩
  rcases hsize' with rfl | hlt'
  · rw [List.reverse_reverse]
    exact hsize
  · right
    rw [size_reverse] at hlt' ⊢
    rcases hsize with rfl | hlt
    · exact hlt'
    · exact Nat.lt_trans hlt' hlt

end Moonshine.Framework.ExecValue
