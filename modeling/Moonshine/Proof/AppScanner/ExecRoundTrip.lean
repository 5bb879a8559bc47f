import Moonshine.Framework.ExecValue
import Moonshine.Impl.AppScanner.Desktop

/-!
# Reading back an `Exec` value

An argument vector is written as an `Exec` value and read by `unescape_desktop_value` and
`parse_exec_command`. Each reader undoes one layer: the string value (`unescape_stringValue`), the
quotes (`split_commandLine`) and the doubled `%` (`expandExecToken_doubled`). What comes out
are the arguments of the line, of those that are left when its ends are trimmed, that are not
empty (`parse_rendered`): an empty argument is dropped, where it should be one of the command's.
-/

namespace Moonshine.Proof.AppScanner

open Moonshine.Framework Moonshine.Framework.ExecValue Moonshine.Impl.AppScanner Moonshine.Impl.Negotiation

variable {shlex : List Char → Option (List (List Char))} {env : String → Option (List Char)}
  {entry : DesktopEntry} {desktopFile : List Char}

theorem unescape_escapeChar (spaces : Bool) (c : Char) (text : List Char) :
    unescapeDesktopValue (escapeChar spaces c ++ text) = c :: unescapeDesktopValue text := by
  unfold escapeChar
  by_cases hslash : c = '\\'
  · simp [hslash, unescapeDesktopValue, unescaped]
  by_cases hn : c = '\n'
  · simp [hn, unescapeDesktopValue, unescaped]
  by_cases ht : c = '\t'
  · simp [ht, unescapeDesktopValue, unescaped]
  by_cases hr : c = '\r'
  · simp [hr, unescapeDesktopValue, unescaped]
  by_cases hs : c = ' ' && spaces
  · obtain ⟨rfl, rfl⟩ : c = ' ' ∧ spaces = true := by simpa using hs
    simp [unescapeDesktopValue, unescaped]
  · simp only [if_neg hslash, if_neg hn, if_neg ht, if_neg hr, if_neg hs]
    exact unescapeDesktopValue_cons hslash text

theorem unescape_stringValue (spaces : Bool) (text : List Char) :
    unescapeDesktopValue (stringValue spaces text) = text := by
  induction text with
  | nil => rfl
  | cons c text ih =>
    have hcons : stringValue spaces (c :: text) = escapeChar spaces c ++ stringValue spaces text := rfl
    rw [hcons, unescape_escapeChar, ih]

theorem expandExecToken_doubled (text : List Char) :
    expandExecToken env entry desktopFile (doubled text) = text := by
  induction text with
  | nil => rfl
  | cons c text ih =>
    by_cases hc : c = '%'
    · simp [hc, doubleChar, expandExecToken, expandFieldCode, ih]
    · rw [doubled_cons, doubleChar, if_neg hc, List.singleton_append, expandExecToken_cons hc, ih]

/-- No doubled text is the icon's field code. -/
theorem doubled_ne_icon (text : List Char) : doubled text ≠ "%i".toList := by
  cases text with
  | nil => simp
  | cons c text =>
    by_cases hc : c = '%'
    · simp [hc, doubleChar]
    · simp [hc, doubleChar]

theorem commandOf_doubled (text : List Char) :
    commandOf env entry desktopFile (doubled text) = if text.isEmpty then [] else [text] := by
  rw [commandOf, if_neg (doubled_ne_icon text), expandExecToken_doubled]

def texts (args : List Argument) : List (List Char) := args.map Argument.text

/-- The arguments that are not empty. -/
def kept (args : List Argument) : List (List Char) := (texts args).filter fun text => !text.isEmpty

theorem texts_cons (a : Argument) (args : List Argument) : texts (a :: args) = a.text :: texts args := rfl

theorem kept_cons (a : Argument) (args : List Argument) :
    kept (a :: args) = (if a.text.isEmpty then [] else [a.text]) ++ kept args := by
  rw [kept, texts_cons, List.filter_cons, kept]
  by_cases h : a.text.isEmpty
  · simp [h]
  · simp [h]

theorem kept_eq_texts_iff {args : List Argument} : kept args = texts args ↔ ∀ a ∈ args, a.text ≠ [] := by
  rw [kept, List.filter_eq_self, texts, List.forall_mem_map]
  simp

theorem flatMap_commandOf (args : List Argument) :
    (args.map fun a => doubled a.text).flatMap (commandOf env entry desktopFile) = kept args := by
  induction args with
  | nil => rfl
  | cons a args ih => rw [List.map_cons, List.flatMap_cons, ih, commandOf_doubled, kept_cons]

/-- The command of a line that is, once trimmed, the line of `args`. -/
theorem parse_trimmed (hshlex : ∀ text, shlex text = Shell.split text) {line : List Char}
    (hexec : entry.exec = some line) {args : List Argument} (htrim : trim line = commandLine args) :
    parseExecCommand shlex env entry desktopFile = if kept args = [] then none else some (kept args) := by
  have htokens : (shlex (commandLine args)).or (splitExecFallback (commandLine args)) =
      some (args.map fun a => doubled a.text) := by
    rw [hshlex, split_commandLine]
    rfl
  unfold parseExecCommand
  simp only [hexec, Option.bind_eq_bind, Option.bind_some, htrim]
  by_cases hempty : commandLine args = []
  · obtain rfl := commandLine_eq_nil hempty
    rfl
  · have hline : (commandLine args).isEmpty = false := by simpa using hempty
    simp only [hline, htokens, Option.bind_some, flatMap_commandOf, List.isEmpty_iff, Bool.false_eq_true, if_false]

theorem sum_length_texts (args : List Argument) : ((texts args).map List.length).sum = size args := by
  induction args with
  | nil => rfl
  | cons a args ih => rw [texts_cons, List.map_cons, List.sum_cons, ih, size]

/-- An empty argument has no characters. -/
theorem sum_length_kept (args : List Argument) : ((kept args).map List.length).sum = size args := by
  induction args with
  | nil => rfl
  | cons a args ih =>
    rw [kept_cons, List.map_append, List.sum_append, ih, size]
    cases a.text with
    | nil => rfl
    | cons c text => simp

/-- Written as the value of an `Exec` key and read back, the arguments are what they were. -/
def RoundTrips (shlex : List Char → Option (List (List Char))) (env : String → Option (List Char))
    (entry : DesktopEntry) (desktopFile : List Char) (spaces : Bool) (args : List Argument) : Prop :=
  parseExecCommand shlex env
      (entry.insertField "Exec".toList (unescapeDesktopValue (stringValue spaces (commandLine args)))) desktopFile =
    some (texts args)

theorem exec_rendered (spaces : Bool) (args : List Argument) :
    (entry.insertField "Exec".toList (unescapeDesktopValue (stringValue spaces (commandLine args)))).exec =
      some (commandLine args) := by
  rw [unescape_stringValue]
  simp [DesktopEntry.exec, DesktopEntry.insertField]

/-- A line that loses characters at its ends gives other arguments. One that keeps them gives the arguments
less the empty ones. -/
theorem roundTrips_iff_trimmed (hshlex : ∀ text, shlex text = Shell.split text) (spaces : Bool)
    {args : List Argument} (hargs : args ≠ []) :
    RoundTrips shlex env entry desktopFile spaces args ↔
      (∀ a ∈ args, a.text ≠ []) ∧ trim (commandLine args) = commandLine args := by
  constructor
  · intro h
    obtain ⟨args', htrim, hsize⟩ :=
      exists_trimmed (p := isWhitespace) (by decide) (by decide) (by decide) args
    have hparse := h.symm.trans (parse_trimmed hshlex (exec_rendered spaces args) htrim)
    have hkept : texts args = kept args' := by
      by_cases hnil : kept args' = []
      · rw [if_pos hnil] at hparse
        cases hparse
      · rw [if_neg hnil] at hparse
        exact Option.some.inj hparse
    have hsame : size args = size args' := by rw [← sum_length_texts, hkept, sum_length_kept]
    obtain rfl : args' = args := hsize.resolve_right (by omega)
    exact ⟨kept_eq_texts_iff.mp hkept.symm, htrim⟩
  · rintro ⟨hnonempty, htrim⟩
    have hne : texts args ≠ [] := fun h => hargs (List.map_eq_nil_iff.mp h)
    rw [RoundTrips, parse_trimmed hshlex (exec_rendered spaces args) htrim, kept_eq_texts_iff.mpr hnonempty,
      if_neg hne]

theorem roundTrips_iff (hshlex : ∀ text, shlex text = Shell.split text) (spaces : Bool) {args : List Argument}
    (hargs : args ≠ []) :
    RoundTrips shlex env entry desktopFile spaces args ↔
      (∀ a ∈ args, a.text ≠ []) ∧ (∀ c ∈ (commandLine args).head?, isWhitespace c = false) ∧
        ∀ c ∈ (commandLine args).getLast?, isWhitespace c = false := by
  rw [roundTrips_iff_trimmed hshlex spaces hargs]
  exact and_congr_right' trimmed_eq_self_iff

/-- A command without quotes, and an argument that has all the characters which quotes escape. -/
def printfCommand : List Argument :=
  [⟨['p', '%'], false, fun _ => ⟨by simp, by simp [reserved]⟩⟩, .quote ['"', '$', ' ', '`', '\\', '%', 'c', '\\']]

theorem roundTrips_iff_printf : RoundTrips Shell.split (fun _ => none) .empty [] true printfCommand := by
  have hends : trimmed isWhitespace (commandLine printfCommand) = commandLine printfCommand := by decide +kernel
  have hnonempty : ∀ a ∈ printfCommand, a.text ≠ [] := by simp [printfCommand, Argument.quote]
  exact (roundTrips_iff (fun _ => rfl) true (List.cons_ne_nil _ _)).mpr
    ⟨hnonempty, trimmed_eq_self_iff.mp hends⟩

theorem not_roundTrips_empty :
    ¬ RoundTrips Shell.split (fun _ => none) .empty [] false [.quote ['a'], .quote []] := by
  unfold RoundTrips
  decide

theorem readLine_exec (entry : DesktopEntry) (value : List Char) :
    entry.readLine ("Exec=".toList ++ value) =
      entry.insertField "Exec".toList (unescapeDesktopValue (trim value)) := by
  have hsplit : splitOnce '=' ("Exec=".toList ++ value) = some ("Exec".toList, value) := by simp [splitOnce]
  have htrim : trim "Exec".toList = "Exec".toList := by decide
  have hlocale : nameLocale "Exec".toList = none := by decide
  simp only [DesktopEntry.readLine, hsplit, htrim, hlocale]

/-- A line of the group that has the value sets the field to what the value stands for. -/
theorem loadLines_exec (entry : DesktopEntry) (found spaces : Bool) (lines : List (List Char)) {line : List Char}
    (hline : trim line = line) :
    entry.loadLines true found (("Exec=".toList ++ stringValue spaces line) :: lines) =
      (entry.insertField "Exec".toList (unescapeDesktopValue (stringValue spaces line))).loadLines
        true found lines := by
  have hvalue : trim (stringValue spaces line) = stringValue spaces line :=
    trimmed_stringValue (by simp [isWhitespace]) spaces hline
  have htrim : trim ("Exec=".toList ++ stringValue spaces line) = "Exec=".toList ++ stringValue spaces line := by
    obtain ⟨-, hback⟩ := trimmed_eq_self_iff.mp hvalue
    apply trimmed_eq_self_iff.mpr
    constructor
    · intro c hc
      exact Option.some.inj hc ▸ (by decide : isWhitespace 'E' = false)
    · intro c hc
      rcases List.eq_nil_or_concat (stringValue spaces line) with hnil | ⟨before, d, hconcat⟩
      · rw [hnil] at hc
        exact Option.some.inj hc ▸ (by decide : isWhitespace '=' = false)
      · rw [hconcat, List.concat_eq_append] at hc hback
        rw [← List.append_assoc, List.getLast?_concat] at hc
        rw [List.getLast?_concat] at hback
        exact hback c hc
  have hfirst : ("Exec=".toList ++ stringValue spaces line).head? = some 'E' := rfl
  rw [DesktopEntry.loadLines]
  simp only [htrim, hfirst, readLine_exec, hvalue]
  simp

/-- A file of one group with one line. -/
def execFile (value : List Char) : List Char :=
  List.intercalate ['\n'] ["[Desktop Entry]".toList, "Exec=".toList ++ value]

theorem load_execFile (spaces : Bool) {line : List Char} (hline : trim line = line) :
    DesktopEntry.load (execFile (stringValue spaces line)) =
      some (DesktopEntry.empty.insertField "Exec".toList (unescapeDesktopValue (stringValue spaces line))) := by
  have hlines : (execFile (stringValue spaces line)).splitOn '\n' =
      ["[Desktop Entry]".toList, "Exec=".toList ++ stringValue spaces line] := by
    refine List.splitOn_intercalate '\n' (fun l hl => ?_) (List.cons_ne_nil _ _)
    have hnewline := newline_not_mem_stringValue spaces line
    rcases List.mem_cons.mp hl with rfl | hl
    · decide
    · rw [List.mem_singleton.mp hl]
      simp [hnewline]
  have hheader (lines : List (List Char)) :
      DesktopEntry.empty.loadLines false false ("[Desktop Entry]".toList :: lines) =
        DesktopEntry.empty.loadLines true true lines := rfl
  rw [DesktopEntry.load, hlines, hheader, loadLines_exec DesktopEntry.empty true spaces [] hline]
  rfl

/-- From the file to the command: where every argument is quoted, only an empty one is lost. -/
theorem parse_execFile (hshlex : ∀ text, shlex text = Shell.split text) (spaces : Bool) {args : List Argument}
    (hargs : args ≠ []) (hquoted : ∀ a ∈ args, a.quoted = true) :
    ((DesktopEntry.load (execFile (stringValue spaces (commandLine args)))).bind fun entry =>
        parseExecCommand shlex env entry desktopFile) = some (texts args) ↔ ∀ a ∈ args, a.text ≠ [] := by
  have hends : trim (commandLine args) = commandLine args := trimmed_quoted (by decide) hquoted
  rw [load_execFile spaces hends]
  exact (roundTrips_iff_trimmed hshlex spaces hargs).trans (and_iff_left hends)

end Moonshine.Proof.AppScanner
