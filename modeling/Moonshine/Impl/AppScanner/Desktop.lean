import Moonshine.Framework.HashMap
import Moonshine.Impl.Session.Negotiation

/-!
# Desktop entries, `app_scanner/desktop.rs`

`load` reads the `[Desktop Entry]` group of a file's text into an entry, and
`parse_exec_command` makes the arguments of a command of its `Exec` field. The crate that
splits a line into shell words is a parameter, `shlex`; `env` is the environment the locale is
taken from, and `desktopFile` the path of the file as text.
-/

namespace Moonshine.Impl.AppScanner

open Moonshine.Framework Moonshine.Impl.Negotiation

/-- `str::split_once`. -/
def splitOnce (c : Char) (text : List Char) : Option (List Char × List Char) :=
  if c ∈ text then some (text.takeWhile (· ≠ c), (text.dropWhile (· ≠ c)).drop 1) else none

structure DesktopEntry where
  fields : HashMap (List Char) (List Char)
  localizedNames : HashMap (List Char) (List Char)

/-- What a character after a backslash stands for. -/
def unescaped (c : Char) : Char :=
  if c = 'n' then '\n' else if c = 't' then '\t' else if c = 'r' then '\r' else if c = 's' then ' ' else c

def unescapeDesktopValue : List Char → List Char
  | [] => []
  | c :: chars =>
    if c ≠ '\\' then c :: unescapeDesktopValue chars
    else
      match chars with
      | [] => []
      | next :: chars => unescaped next :: unescapeDesktopValue chars

theorem unescapeDesktopValue_cons {c : Char} (hc : c ≠ '\\') (chars : List Char) :
    unescapeDesktopValue (c :: chars) = c :: unescapeDesktopValue chars := by
  rw [unescapeDesktopValue.eq_def]
  exact if_pos hc

/-- The locale of a key `Name[locale]`. -/
def nameLocale (key : List Char) : Option (List Char) :=
  let namePrefix := "Name[".toList
  if namePrefix.isPrefixOf key && (key.drop namePrefix.length).getLast? = some ']' then
    some (key.drop namePrefix.length).dropLast
  else none

namespace DesktopEntry

def empty : DesktopEntry := ⟨∅, ∅⟩

def insertField (entry : DesktopEntry) (key value : List Char) : DesktopEntry :=
  { entry with fields := entry.fields.insert key value }

/-- What a line of the group sets. -/
def readLine (entry : DesktopEntry) (line : List Char) : DesktopEntry :=
  match splitOnce '=' line with
  | none => entry
  | some (key, value) =>
    let key := trim key
    let value := unescapeDesktopValue (trim value)
    match nameLocale key with
    | some locale => { entry with localizedNames := entry.localizedNames.insert locale value }
    | none => entry.insertField key value

/-- The loop over the lines. -/
def loadLines (entry : DesktopEntry) (inDesktopEntry foundDesktopEntry : Bool) :
    List (List Char) → Option DesktopEntry
  | [] => if foundDesktopEntry then some entry else none
  | line :: lines =>
    let line := trim line
    if line = [] ∨ line.head? = some '#' then entry.loadLines inDesktopEntry foundDesktopEntry lines
    else if line.head? = some '[' ∧ line.getLast? = some ']' then
      if (line.drop 1).dropLast = "Desktop Entry".toList then entry.loadLines true true lines
      else if foundDesktopEntry then some entry
      else entry.loadLines false foundDesktopEntry lines
    else if inDesktopEntry then (entry.readLine line).loadLines inDesktopEntry foundDesktopEntry lines
    else entry.loadLines inDesktopEntry foundDesktopEntry lines

/-- The carriage return that `str::lines` takes off the end of a line is white space, which the loop takes off. -/
def load (contents : List Char) : Option DesktopEntry := empty.loadLines false false (contents.splitOn '\n')

def exec (entry : DesktopEntry) : Option (List Char) := entry.fields.get? "Exec".toList

/-- The icon's name, where it has one. -/
def icon (entry : DesktopEntry) : Option (List Char) :=
  ((entry.fields.get? "Icon".toList).map trim).filter fun icon => !icon.isEmpty

end DesktopEntry

def localePreferences (env : String → Option (List Char)) : List (List Char) :=
  ["LC_MESSAGES", "LC_ALL", "LANG"].flatMap (fun key =>
    let locale := (((env key).map trim).getD []).takeWhile (· ≠ '.') |>.takeWhile (· ≠ '@')
    if locale = [] then []
    else
      match splitOnce '_' locale with
      | some (language, _) => [locale, language]
      | none => [locale]) ++ ["C".toList]

def DesktopEntry.name (env : String → Option (List Char)) (entry : DesktopEntry) : Option (List Char) :=
  (entry.fields.get? "Name".toList).or
    ((localePreferences env).findSome? fun locale => entry.localizedNames.get? locale)

/-- What a field code stands for. Those that are skipped stand for nothing, and so do those that are not known. -/
def expandFieldCode (env : String → Option (List Char)) (entry : DesktopEntry) (desktopFile : List Char)
    (fieldCode : Char) : List Char :=
  if fieldCode = '%' then ['%']
  else if fieldCode = 'c' then (entry.name env).getD []
  else if fieldCode = 'k' then desktopFile
  else if fieldCode = 'i' then entry.icon.getD []
  else []

def expandExecToken (env : String → Option (List Char)) (entry : DesktopEntry) (desktopFile : List Char) :
    List Char → List Char
  | [] => []
  | c :: chars =>
    if c ≠ '%' then c :: expandExecToken env entry desktopFile chars
    else
      match chars with
      | [] => []
      | fieldCode :: chars =>
        expandFieldCode env entry desktopFile fieldCode ++ expandExecToken env entry desktopFile chars

theorem expandExecToken_cons {env : String → Option (List Char)} {entry : DesktopEntry} {desktopFile : List Char}
    {c : Char} (hc : c ≠ '%') (chars : List Char) :
    expandExecToken env entry desktopFile (c :: chars) = c :: expandExecToken env entry desktopFile chars := by
  rw [expandExecToken.eq_def]
  exact if_pos hc

/-- The loop over the characters, with the tokens and the one begun, and whether it is in quotes. -/
def splitFallback (tokens : List (List Char)) (current : List Char) (inSingleQuotes inDoubleQuotes : Bool) :
    List Char → Option (List (List Char))
  | [] =>
    if inSingleQuotes || inDoubleQuotes then none
    else some (if current.isEmpty then tokens else tokens ++ [current])
  | c :: chars =>
    if c = '\'' && !inDoubleQuotes then splitFallback tokens current (!inSingleQuotes) inDoubleQuotes chars
    else if c = '"' && !inSingleQuotes then splitFallback tokens current inSingleQuotes (!inDoubleQuotes) chars
    else if c = '\\' && (inDoubleQuotes || inSingleQuotes) then
      match chars with
      | [] => none
      | next :: chars => splitFallback tokens (current ++ [next]) inSingleQuotes inDoubleQuotes chars
    else if isWhitespace c && !inSingleQuotes && !inDoubleQuotes then
      splitFallback (if current.isEmpty then tokens else tokens ++ [current]) [] inSingleQuotes inDoubleQuotes chars
    else splitFallback tokens (current ++ [c]) inSingleQuotes inDoubleQuotes chars

def splitExecFallback (exec : List Char) : Option (List (List Char)) := splitFallback [] [] false false exec

/-- What a token adds to the command. -/
def commandOf (env : String → Option (List Char)) (entry : DesktopEntry) (desktopFile token : List Char) :
    List (List Char) :=
  if token = "%i".toList then
    match entry.icon with
    | some icon => ["--icon".toList, icon]
    | none => []
  else
    let expanded := expandExecToken env entry desktopFile token
    if expanded.isEmpty then [] else [expanded]

def parseExecCommand (shlex : List Char → Option (List (List Char))) (env : String → Option (List Char))
    (entry : DesktopEntry) (desktopFile : List Char) : Option (List (List Char)) := do
  let exec ← entry.exec
  let exec := trim exec
  if exec.isEmpty then none
  else
    let tokens ← (shlex exec).or (splitExecFallback exec)
    let command := tokens.flatMap (commandOf env entry desktopFile)
    if command.isEmpty then none else some command

end Moonshine.Impl.AppScanner
