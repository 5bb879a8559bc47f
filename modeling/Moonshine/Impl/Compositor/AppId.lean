import Moonshine.Framework.HashMap
import Moonshine.Impl.Session.Negotiation

/-!
# App IDs of process trees, `session/compositor/handlers.rs`

`get_appid_from_pid` walks from a process to its parents and looks for a Steam app ID in
their command lines. What it finds of each process goes into a cache, and later walks take
it from there. The loop's body is `visitPid`, and the loop runs for a number of `rounds`. A
lookup reads the clock whenever it stores or takes an entry: `clock n` is the `n`th reading,
in nanoseconds.
-/

namespace Moonshine.Impl.Compositor

open Moonshine.Framework Moonshine.Impl.Negotiation

/-- `/proc/<pid>/stat`, as the kernel writes it: the process's ID and its name in parentheses,
then fields that have none. -/
structure ProcStat where
  pid : List Char
  comm : List Char
  fields : List Char
  no_open : '(' ∉ pid
  no_close : ')' ∉ fields

def ProcStat.text (s : ProcStat) : List Char := s.pid ++ '(' :: (s.comm ++ ')' :: ' ' :: s.fields)

/-- What can be read of each process. -/
structure ProcTable where
  stat : UInt32 → Option ProcStat
  cmdline : UInt32 → Option (List Byte)

def find (c : Char) (text : List Char) : Option Nat := text.findIdx? (· = c)

def rfind (c : Char) (text : List Char) : Option Nat :=
  (text.reverse.findIdx? (· = c)).map fun i => text.length - 1 - i

def splitWhitespace (text : List Char) : List (List Char) :=
  (text.splitOnP isWhitespace).filter fun word => !word.isEmpty

/-- The name and the parent, `none` where the walk stops. -/
def parseStat (text : List Char) : Outcome (Option (List Char × UInt32)) :=
  match (find '(' text).map (· + 1), rfind ')' text with
  | some procNameStart, some procNameEnd =>
    if procNameEnd < procNameStart then .panic
    else
      let procName := (text.take procNameEnd).drop procNameStart
      match splitWhitespace (text.drop (procNameEnd + 1)) with
      | _ :: parent :: _ => .ok ((parseU32 parent).map fun parentPid => (procName, parentPid))
      | [_] => .ok none
      | [] => .ok none
  | some _, none => .ok none
  | none, _ => .ok none

/-- The slice begins one byte after the parenthesis, which may not be the end of a character. -/
def getPidStarttime (t : ProcTable) (pid : UInt32) : Outcome (Option UInt64) :=
  match t.stat pid with
  | none => .ok none
  | some stat =>
    match rfind ')' stat.text with
    | none => .ok none
    | some procNameEnd =>
      match stat.text.drop (procNameEnd + 1) with
      | [] => .panic
      | c :: rest =>
        if c.utf8Size ≠ 1 then .panic
        else .ok ((splitWhitespace rest)[19]?.bind fun s => (parseUnsigned 64 s).map UInt64.ofNat)

def ascii (s : String) : List Byte := s.toList.map fun c => UInt8.ofNat c.toNat

def stripPrefix (pre part : List Byte) : Option (List Byte) :=
  if pre.isPrefixOf part then some (part.drop pre.length) else none

def isAsciiWhitespace (b : Byte) : Bool := b ∈ ([32, 9, 10, 12, 13] : List Byte)

def trimAscii (bytes : List Byte) : List Byte :=
  ((bytes.dropWhile isAsciiWhitespace).reverse.dropWhile isAsciiWhitespace).reverse

/-- An ID other than 0. Bytes that are not ASCII are part of no number, in UTF-8 or not. -/
def nonzeroId (bytes : List Byte) : Option UInt32 :=
  (parseU32 ((trimAscii bytes).map fun b => Char.ofNat b.toNat)).filter (· ≠ 0)

/-- The loop over the parts, each with what it has found of `SteamLaunch` and `AppId=` so far. -/
def scanParts (foundSteamLaunch : Bool) (appId : UInt32) : List (List Byte) → UInt32
  | [] => appId
  | part :: parts =>
    let idsStr := stripPrefix (ascii "--appids=") part
    let appId := (idsStr.bind fun ids => (ids.splitOn 44).findSome? nonzeroId).getD appId
    if idsStr.isSome && appId ≠ 0 then appId
    else
      let isSteamLaunch := part = ascii "SteamLaunch"
      match (stripPrefix (ascii "AppId=") part).bind nonzeroId with
      | some id =>
        if !isSteamLaunch && foundSteamLaunch then id
        else scanParts (foundSteamLaunch || isSteamLaunch) (if appId = 0 then id else appId) parts
      | none => scanParts (foundSteamLaunch || isSteamLaunch) appId parts

def scanCmdlineForAppId (cmdline : List Byte) : UInt32 := scanParts false 0 (cmdline.splitOn 0)

/-- What the command line says, 0 also where it cannot be read. -/
def ProcTable.appId (t : ProcTable) (pid : UInt32) : UInt32 := ((t.cmdline pid).map scanCmdlineForAppId).getD 0

structure AppIdCache where
  entries : HashMap (UInt32 × UInt64) (UInt32 × Nat)
  /-- How often the clock has been read. -/
  readings : Nat

/-- `APPID_CACHE_TTL_SECS`. -/
def appidCacheTtlSecs : Nat := 5

def now (clock : Nat → Nat) : Prog AppIdCache Nat := do
  let n ← Prog.gets fun s => s.readings
  Prog.modify fun s => { s with readings := s.readings + 1 }
  return clock n

def cacheGet (t : ProcTable) (clock : Nat → Nat) (pid : UInt32) : Prog AppIdCache (Option UInt32) := do
  let starttime ← getPidStarttime t pid
  match starttime with
  | none => return none
  | some starttime =>
    let entry ← Prog.gets fun s => s.entries.get? (pid, starttime)
    match entry with
    | none => return none
    | some (appId, time) =>
      let instant ← now clock
      if (instant - time) / 1000000000 < appidCacheTtlSecs then return some appId
      else
        Prog.modify fun s => { s with entries := s.entries.erase (pid, starttime) }
        return none

def cacheSet (t : ProcTable) (clock : Nat → Nat) (pid appId : UInt32) : Prog AppIdCache Unit := do
  let starttime ← getPidStarttime t pid
  match starttime with
  | none => return ()
  | some starttime =>
    let time ← now clock
    Prog.modify fun s => { s with entries := s.entries.insert (pid, starttime) (appId, time) }

/-- How a round of the loop ends. -/
inductive Visit
  | found (appId : UInt32) | stop | next (pid : UInt32)
  deriving DecidableEq, Repr

def reaper : List Char := "reaper".toList

def visitPid (t : ProcTable) (clock : Nat → Nat) (nextPid : UInt32) : Prog AppIdCache Visit := do
  match t.stat nextPid with
  | none => return .stop
  | some procStat =>
    let parsed ← parseStat procStat.text
    match parsed with
    | none => return .stop
    | some (procName, parentPid) =>
      let cached ← cacheGet t clock nextPid
      match cached with
      | some appId =>
        if appId ≠ 0 then return .found appId
        else if procName = reaper then return .stop
        else return .next parentPid
      | none =>
        if procName = reaper then
          let appId := t.appId nextPid
          cacheSet t clock nextPid appId
          return if appId ≠ 0 then .found appId else .stop
        else if parentPid = 0 ∨ parentPid = 0xFFFFFFFF then return .stop
        else if nextPid = 1 then return .stop
        else
          let appId := t.appId nextPid
          cacheSet t clock nextPid appId
          return if appId ≠ 0 then .found appId else .next parentPid

/-- The loop, `none` while it still runs after `rounds`. -/
def getAppidFromPid (t : ProcTable) (clock : Nat → Nat) : Nat → UInt32 → Prog AppIdCache (Option UInt32)
  | 0, _ => return none
  | rounds + 1, nextPid => do
    let visit ← visitPid t clock nextPid
    match visit with
    | .found appId => return some appId
    | .stop => return some 0
    | .next pid => getAppidFromPid t clock rounds pid

end Moonshine.Impl.Compositor
