import Mathlib.Data.Fintype.Basic
import Mathlib.Order.WellFounded
import Moonshine.Framework.Run
import Moonshine.Impl.Compositor.AppId

/-!
# Cached walks

`plainVisit` is a round of the walk without the cache. An entry of a cache that only walks
over this table have filled says of its process what the plain round would find (`Sound`),
so that a round with the cache ends like one without it (`visitPid_sound`), and so does the
walk, after every number of rounds (`getAppidFromPid_sound`). The plain walk ends where no
process but 1 is among its own ancestors (`plainWalk_terminates`).
-/

namespace Moonshine.Proof.Compositor

open Moonshine.Framework Moonshine.Impl.Compositor Moonshine.Impl.Negotiation

theorem find_append {c : Char} {before after : List Char} (h : c ∉ before) :
    find c (before ++ c :: after) = some before.length := by
  have hbefore : before.findIdx? (· = c) = none := by
    rw [List.findIdx?_eq_none_iff]
    intro x hx
    exact decide_eq_false fun heq => h (heq ▸ hx)
  rw [find, List.findIdx?_append, hbefore, List.findIdx?_cons]
  simp

theorem rfind_append {c : Char} {before after : List Char} (h : c ∉ after) :
    rfind c (before ++ c :: after) = some before.length := by
  have hrev : find c (after.reverse ++ c :: before.reverse) = some after.length := by
    rw [find_append (by simpa using h), List.length_reverse]
  have htext : (before ++ c :: after).reverse = after.reverse ++ c :: before.reverse := by simp
  rw [find] at hrev
  rw [rfind, htext, hrev, Option.map_some, List.length_append, List.length_cons, Option.some.injEq]
  omega

/-- The parent's ID, if the field is one. -/
def parentPid (s : ProcStat) : Option UInt32 :=
  match splitWhitespace (' ' :: s.fields) with
  | _ :: parent :: _ => parseU32 parent
  | [_] => none
  | [] => none

/-- What stands before the closing parenthesis. -/
def beforeClose (s : ProcStat) : List Char := s.pid ++ '(' :: s.comm

theorem text_eq (s : ProcStat) : s.text = beforeClose s ++ ')' :: (' ' :: s.fields) := by
  simp [ProcStat.text, beforeClose]

theorem rfind_text (s : ProcStat) : rfind ')' s.text = some (beforeClose s).length := by
  rw [text_eq, rfind_append (by simpa using s.no_close)]

theorem drop_text (s : ProcStat) : s.text.drop ((beforeClose s).length + 1) = ' ' :: s.fields := by
  rw [text_eq, List.drop_append]
  simp

theorem parseStat_text (s : ProcStat) :
    parseStat s.text = .ok ((parentPid s).map fun parent => (s.comm, parent)) := by
  have hname : (s.text.take (beforeClose s).length).drop (s.pid.length + 1) = s.comm := by
    rw [text_eq, List.take_left', beforeClose, List.drop_append] <;> simp
  have hlen : ¬ (beforeClose s).length < s.pid.length + 1 := by
    rw [beforeClose, List.length_append, List.length_cons]
    omega
  have hfind : find '(' s.text = some s.pid.length := find_append s.no_open
  rw [parseStat, hfind, rfind_text, Option.map_some, parentPid]
  simp only [if_neg hlen, hname, drop_text]
  rcases splitWhitespace (' ' :: s.fields) with _ | ⟨state, _ | ⟨parent, rest⟩⟩ <;> rfl

theorem getPidStarttime_eq_ok (t : ProcTable) (pid : UInt32) :
    ∃ starttime, getPidStarttime t pid = .ok starttime := by
  rw [getPidStarttime]
  cases t.stat pid with
  | none => exact ⟨none, rfl⟩
  | some stat =>
    simp only [rfind_text, drop_text]
    rw [if_neg (by decide)]
    exact ⟨_, rfl⟩

/-- What a process says, where the walk reads its command line. -/
def answer (appId : UInt32) (procName : List Char) (parentPid : UInt32) : Visit :=
  if appId ≠ 0 then .found appId else if procName = reaper then .stop else .next parentPid

/-- A round without the cache. -/
def plainVisit (t : ProcTable) (nextPid : UInt32) : Outcome Visit := do
  match t.stat nextPid with
  | none => return .stop
  | some procStat =>
    let parsed ← parseStat procStat.text
    match parsed with
    | none => return .stop
    | some (procName, parentPid) =>
      if procName = reaper then return answer (t.appId nextPid) procName parentPid
      else if parentPid = 0 ∨ parentPid = 0xFFFFFFFF then return .stop
      else if nextPid = 1 then return .stop
      else return answer (t.appId nextPid) procName parentPid

def plainWalk (t : ProcTable) : Nat → UInt32 → Outcome (Option UInt32)
  | 0, _ => return none
  | rounds + 1, nextPid => do
    let visit ← plainVisit t nextPid
    match visit with
    | .found appId => return some appId
    | .stop => return some 0
    | .next pid => plainWalk t rounds pid

variable {t : ProcTable} {clock : Nat → Nat} {c : AppIdCache} {pid : UInt32}

/-- Every entry says what the plain round finds of its process. -/
def Sound (t : ProcTable) (c : AppIdCache) : Prop :=
  ∀ pid starttime appId time, c.entries.get? (pid, starttime) = some (appId, time) →
    ∀ stat procName parentPid, t.stat pid = some stat → parseStat stat.text = .ok (some (procName, parentPid)) →
      plainVisit t pid = .ok (answer appId procName parentPid)

theorem cacheGet_sound (h : Sound t c) : ∃ found c', cacheGet t clock pid c = (.ok found, c') ∧ Sound t c' ∧
    ∀ appId, found = some appId → ∃ starttime time, c.entries.get? (pid, starttime) = some (appId, time) := by
  obtain ⟨starttime, hstart⟩ := getPidStarttime_eq_ok t pid
  rw [cacheGet, hstart, Prog.liftM_bind_ok]
  cases starttime with
  | none => exact ⟨none, c, rfl, h, by simp⟩
  | some starttime =>
    simp only [Prog.gets_bind]
    cases hentry : c.entries.get? (pid, starttime) with
    | none => exact ⟨none, c, rfl, h, by simp⟩
    | some entry =>
      obtain ⟨appId, time⟩ := entry
      have hnow : now clock c = (.ok (clock c.readings), { c with readings := c.readings + 1 }) := rfl
      simp only [Prog.bind_of_ok hnow]
      split
      · exact ⟨some appId, _, rfl, h, fun _ heq => ⟨starttime, time, Option.some.inj heq ▸ hentry⟩⟩
      · refine ⟨none, _, rfl, ?_, by simp⟩
        intro pid' starttime' appId' time' hget
        simp only [HashMap.get?_erase] at hget
        split at hget
        next => cases hget
        next => exact h pid' starttime' appId' time' hget

theorem cacheSet_sound {appId : UInt32} (h : Sound t c) (hpid : ∀ stat procName parentPid, t.stat pid = some stat →
      parseStat stat.text = .ok (some (procName, parentPid)) →
        plainVisit t pid = .ok (answer appId procName parentPid)) :
    ∃ c', cacheSet t clock pid appId c = (.ok (), c') ∧ Sound t c' := by
  obtain ⟨starttime, hstart⟩ := getPidStarttime_eq_ok t pid
  rw [cacheSet, hstart, Prog.liftM_bind_ok]
  cases starttime with
  | none => exact ⟨c, rfl, h⟩
  | some starttime =>
    refine ⟨_, rfl, ?_⟩
    intro pid' starttime' appId' time' hget
    simp only [HashMap.get?_insert] at hget
    split at hget
    next heq =>
      obtain ⟨rfl, -⟩ := Prod.mk.inj heq
      obtain ⟨rfl, -⟩ := Prod.mk.inj (Option.some.inj hget)
      exact hpid
    next => exact h pid' starttime' appId' time' hget

/-- The round of a process with a parent. -/
def plainAnswer (t : ProcTable) (pid : UInt32) (procName : List Char) (parentPid : UInt32) : Visit :=
  if procName = reaper then answer (t.appId pid) procName parentPid
  else if parentPid = 0 ∨ parentPid = 0xFFFFFFFF then .stop
  else if pid = 1 then .stop
  else answer (t.appId pid) procName parentPid

theorem plainVisit_eq {s : ProcStat} {parent : UInt32} (hstat : t.stat pid = some s)
    (hparent : parentPid s = some parent) : plainVisit t pid = .ok (plainAnswer t pid s.comm parent) := by
  rw [plainVisit, hstat]
  simp only [parseStat_text, hparent, Option.map_some, Outcome.ok_bind, plainAnswer]
  split_ifs <;> rfl

/-- What the walk stores of a process whose command line it reads. -/
theorem scan_sound {s : ProcStat} {parent : UInt32} (h : Sound t c) (hstat : t.stat pid = some s)
    (hparent : parentPid s = some parent)
    (hplain : plainAnswer t pid s.comm parent = answer (t.appId pid) s.comm parent) :
    ∃ c', cacheSet t clock pid (t.appId pid) c = (.ok (), c') ∧ Sound t c' := by
  refine cacheSet_sound h fun stat' procName parent' hstat' hparse' => ?_
  obtain rfl := Option.some.inj (hstat.symm.trans hstat')
  rw [parseStat_text, hparent, Option.map_some] at hparse'
  obtain ⟨rfl, rfl⟩ := Prod.mk.inj (Option.some.inj (Outcome.ok.inj hparse'))
  rw [plainVisit_eq hstat hparent, hplain]

theorem visitPid_sound (h : Sound t c) :
    ∃ c', visitPid t clock pid c = (plainVisit t pid, c') ∧ Sound t c' := by
  cases hstat : t.stat pid with
  | none => exact ⟨c, by rw [visitPid, plainVisit, hstat]; rfl, h⟩
  | some s =>
    have hparse := parseStat_text s
    cases hparent : parentPid s with
    | none =>
      rw [hparent, Option.map_none] at hparse
      refine ⟨c, ?_, h⟩
      rw [visitPid, plainVisit, hstat]
      simp only [hparse]
      rfl
    | some parent =>
      rw [hparent, Option.map_some] at hparse
      obtain ⟨found, c', hget, hc', hfound⟩ := cacheGet_sound h
      rw [plainVisit_eq hstat hparent, visitPid, hstat]
      simp only [hparse, Prog.liftM_bind_ok]
      rw [Prog.bind_of_ok hget]
      cases found with
      | some appId =>
        -- The entry is the plain round's answer.
        obtain ⟨starttime, time, hentry⟩ := hfound appId rfl
        have hanswer := h pid starttime appId time hentry s s.comm parent hstat hparse
        rw [plainVisit_eq hstat hparent] at hanswer
        refine ⟨c', ?_, hc'⟩
        rw [hanswer, answer]
        simp only
        split_ifs <;> rfl
      | none =>
        simp only
        by_cases hreaper : s.comm = reaper
        · have hplain : plainAnswer t pid s.comm parent = answer (t.appId pid) s.comm parent := if_pos hreaper
          obtain ⟨c'', hset, hc''⟩ := scan_sound hc' hstat hparent hplain
          refine ⟨c'', ?_, hc''⟩
          rw [if_pos hreaper, Prog.bind_of_ok hset, hplain, answer]
          split_ifs <;> rfl
        · by_cases hroot : parent = 0 ∨ parent = 0xFFFFFFFF
          · refine ⟨c', ?_, hc'⟩
            rw [if_neg hreaper, if_pos hroot, plainAnswer, if_neg hreaper, if_pos hroot]
            rfl
          · by_cases hinit : pid = 1
            · refine ⟨c', ?_, hc'⟩
              rw [if_neg hreaper, if_neg hroot, if_pos hinit, plainAnswer, if_neg hreaper, if_neg hroot,
                if_pos hinit]
              rfl
            · have hplain : plainAnswer t pid s.comm parent = answer (t.appId pid) s.comm parent := by
                rw [plainAnswer, if_neg hreaper, if_neg hroot, if_neg hinit]
              obtain ⟨c'', hset, hc''⟩ := scan_sound hc' hstat hparent hplain
              refine ⟨c'', ?_, hc''⟩
              rw [if_neg hreaper, if_neg hroot, if_neg hinit, Prog.bind_of_ok hset, hplain, answer,
                if_neg hreaper]
              split_ifs <;> rfl

theorem getAppidFromPid_sound (rounds : Nat) (h : Sound t c) :
    ∃ c', getAppidFromPid t clock rounds pid c = (plainWalk t rounds pid, c') ∧ Sound t c' := by
  induction rounds generalizing pid c with
  | zero => exact ⟨c, rfl, h⟩
  | succ rounds ih =>
    obtain ⟨c', hvisit, hc'⟩ := visitPid_sound h
    rw [getAppidFromPid, plainWalk]
    cases hplain : plainVisit t pid with
    | err => exact ⟨c', Prog.bind_of_err (hplain ▸ hvisit), hc'⟩
    | panic => exact ⟨c', Prog.bind_of_panic (hplain ▸ hvisit), hc'⟩
    | ok visit =>
      rw [Prog.bind_of_ok (hplain ▸ hvisit), Outcome.ok_bind]
      cases visit with
      | found appId => exact ⟨c', rfl, hc'⟩
      | stop => exact ⟨c', rfl, hc'⟩
      | next parent => exact ih hc'

/-- `q` is the parent of `p`. -/
def Parent (t : ProcTable) (q p : UInt32) : Prop := ∃ s, t.stat p = some s ∧ parentPid s = some q

theorem plainVisit_ok (t : ProcTable) (pid : UInt32) : ∃ visit, plainVisit t pid = .ok visit := by
  cases hstat : t.stat pid with
  | none => exact ⟨.stop, by rw [plainVisit, hstat]; rfl⟩
  | some s =>
    cases hparent : parentPid s with
    | none => exact ⟨.stop, by rw [plainVisit, hstat]; simp [parseStat_text, hparent]⟩
    | some parent => exact ⟨_, plainVisit_eq hstat hparent⟩

/-- The walk goes on to the parent, and not from process 1. -/
theorem parent_of_next {parent : UInt32} (h : plainVisit t pid = .ok (.next parent)) :
    Parent t parent pid ∧ pid ≠ 1 := by
  cases hstat : t.stat pid with
  | none =>
    rw [plainVisit, hstat] at h
    cases h
  | some s =>
    cases hparent : parentPid s with
    | none =>
      rw [plainVisit, hstat] at h
      simp [parseStat_text, hparent] at h
    | some q =>
      rw [plainVisit_eq hstat hparent, Outcome.ok.injEq] at h
      simp only [plainAnswer, answer] at h
      split_ifs at h with hreaper happId hroot hinit happId
      obtain rfl := Visit.next.inj h
      exact ⟨⟨s, hstat, hparent⟩, hinit⟩

/-- No process but 1 is among its own ancestors. -/
def Rooted (t : ProcTable) : Prop := ∀ pid, pid ≠ 1 → ¬ Relation.TransGen (Parent t) pid pid

/-- The step of the walk from `p`. -/
def Climbs (t : ProcTable) (q p : UInt32) : Prop := Parent t q p ∧ p ≠ 1

theorem wellFounded_climbs (h : Rooted t) : WellFounded (Climbs t) := by
  have hirrefl : ∀ p, ¬ Relation.TransGen (Climbs t) p p := by
    intro p hp
    obtain ⟨_, -, -, hne⟩ := Relation.TransGen.tail'_iff.mp hp
    exact h p hne (Relation.TransGen.mono (fun _ _ h => h.1) _ _ hp)
  have : Finite UInt32 := Finite.of_injective UInt32.toFin fun _ _ h => UInt32.toFin_inj.mp h
  have : Std.Irrefl (Relation.TransGen (Climbs t)) := ⟨hirrefl⟩
  exact Subrelation.wf (fun h => Relation.TransGen.single h)
    (Finite.wellFounded_of_trans_of_irrefl (Relation.TransGen (Climbs t)))

theorem plainWalk_terminates (h : Rooted t) (pid : UInt32) :
    ∃ rounds appId, plainWalk t rounds pid = .ok (some appId) := by
  induction pid using (wellFounded_climbs h).induction with
  | _ pid ih =>
    obtain ⟨visit, hvisit⟩ := plainVisit_ok t pid
    cases visit with
    | found appId => exact ⟨1, appId, by rw [plainWalk, hvisit]; rfl⟩
    | stop => exact ⟨1, 0, by rw [plainWalk, hvisit]; rfl⟩
    | next parent =>
      obtain ⟨rounds, appId, hwalk⟩ := ih parent (parent_of_next hvisit)
      exact ⟨rounds + 1, appId, by rw [plainWalk, hvisit]; exact hwalk⟩

def emptyCache : AppIdCache := ⟨∅, 0⟩

/-- A lookup, as far as it got in a number of rounds. -/
def lookup (t : ProcTable) (clock : Nat → Nat) (c : AppIdCache) (a : UInt32 × Nat) : Option AppIdCache :=
  some (getAppidFromPid t clock a.2 a.1 c).2

theorem sound_of_exec {earlier : List (UInt32 × Nat)} (h : exec (lookup t clock) emptyCache earlier = some c) :
    Sound t c := by
  have hempty : Sound t emptyCache := by
    intro pid starttime appId time hget
    exact absurd hget (by simp [emptyCache, HashMap.get?])
  refine exec_inv ?_ hempty h
  intro c a c' hc hstep
  obtain rfl := Option.some.inj hstep
  obtain ⟨c', hwalk, hc'⟩ := getAppidFromPid_sound a.2 hc
  rwa [hwalk]

theorem cached_walk_eq (t : ProcTable) (clock : Nat → Nat) {earlier : List (UInt32 × Nat)} {c : AppIdCache}
    (h : exec (lookup t clock) emptyCache earlier = some c) (pid : UInt32) :
    (∀ rounds, (getAppidFromPid t clock rounds pid c).1 = plainWalk t rounds pid) ∧
      (Rooted t → ∃ rounds appId, (getAppidFromPid t clock rounds pid c).1 = .ok (some appId)) := by
  have heq : ∀ rounds, (getAppidFromPid t clock rounds pid c).1 = plainWalk t rounds pid := by
    intro rounds
    obtain ⟨c', hwalk, -⟩ := getAppidFromPid_sound rounds (sound_of_exec h)
    rw [hwalk]
  refine ⟨heq, fun hrooted => ?_⟩
  obtain ⟨rounds, appId, hwalk⟩ := plainWalk_terminates hrooted pid
  exact ⟨rounds, appId, (heq rounds).trans hwalk⟩

/-- The stat file of a process, of which the fields after `ppid` up to `starttime` are as those of an idle one. -/
def statOf (pid comm ppid : String) (hopen : '(' ∉ pid.toList)
    (hclose : ')' ∉ ("S " ++ ppid ++ " 10 10 0 -1 4194560 0 0 0 0 0 0 0 0 20 0 1 0 700 0").toList) : ProcStat :=
  ⟨pid.toList, comm.toList, ("S " ++ ppid ++ " 10 10 0 -1 4194560 0 0 0 0 0 0 0 0 20 0 1 0 700 0").toList, hopen, hclose⟩

/-- A game, 20, under Steam's reaper, 10. -/
def gameTable : ProcTable where
  stat pid :=
    if pid = 20 then some (statOf "20 " "game" "10" (by decide) (by decide))
    else if pid = 10 then some (statOf "10 " "reaper" "1" (by decide) (by decide))
    else none
  cmdline pid := if pid = 10 then some (ascii "reaper\x00SteamLaunch\x00AppId=7") else none

theorem parent_gameTable {q p : UInt32} (h : Parent gameTable q p) : q < p := by
  obtain ⟨s, hstat, hparent⟩ := h
  simp only [gameTable] at hstat
  split_ifs at hstat with h20 h10
  · obtain rfl := Option.some.inj hstat
    obtain rfl : 10 = q := Option.some.inj hparent
    exact h20 ▸ by decide
  · obtain rfl := Option.some.inj hstat
    obtain rfl : 1 = q := Option.some.inj hparent
    exact h10 ▸ by decide

theorem rooted_gameTable : Rooted gameTable := by
  intro pid _ hcycle
  have hlt : ∀ q p, Relation.TransGen (Parent gameTable) q p → q < p := by
    intro q p h
    induction h with
    | single h => exact parent_gameTable h
    | tail _ h ih => exact UInt32.lt_trans ih (parent_gameTable h)
  exact UInt32.lt_irrefl pid (hlt pid pid hcycle)

/-- A reading of the clock each second. -/
def seconds (n : Nat) : Nat := n * 1000000000

/-- After one lookup the next walk takes both processes from the cache, after three it finds the game's
entry expired. -/
theorem cached_walk_eq_gameTable : ∃ hit expired,
    exec (lookup gameTable seconds) emptyCache [(20, 2)] = some hit ∧
      exec (lookup gameTable seconds) emptyCache [(20, 2), (20, 2), (20, 2)] = some expired ∧
      (cacheGet gameTable seconds 20 hit).1 = .ok (some 0) ∧ (cacheGet gameTable seconds 10 hit).1 = .ok (some 7) ∧
      (cacheGet gameTable seconds 20 expired).1 = .ok none ∧ expired.entries.get? (20, 700) = some (0, 0) ∧
      ∀ c ∈ [hit, expired], (∀ rounds, (getAppidFromPid gameTable seconds rounds 20 c).1 = plainWalk gameTable rounds 20) ∧
        ∃ rounds appId, (getAppidFromPid gameTable seconds rounds 20 c).1 = .ok (some appId) := by
  refine ⟨_, _, rfl, rfl, by decide +kernel, by decide +kernel, by decide +kernel, by decide +kernel, ?_⟩
  refine List.forall_mem_cons.mpr ⟨?_, List.forall_mem_cons.mpr ⟨?_, List.forall_mem_nil _⟩⟩
  · have hreach : exec (lookup gameTable seconds) emptyCache [(20, 2)] = some _ := rfl
    obtain ⟨heq, hends⟩ := cached_walk_eq gameTable seconds hreach 20
    exact ⟨heq, hends rooted_gameTable⟩
  · have hreach : exec (lookup gameTable seconds) emptyCache [(20, 2), (20, 2), (20, 2)] = some _ := rfl
    obtain ⟨heq, hends⟩ := cached_walk_eq gameTable seconds hreach 20
    exact ⟨heq, hends rooted_gameTable⟩

/-- Two processes that are each other's parent. -/
def loopTable : ProcTable where
  stat pid :=
    if pid = 2 then some (statOf "2 " "sh" "3" (by decide) (by decide))
    else if pid = 3 then some (statOf "3 " "sh" "2" (by decide) (by decide))
    else none
  cmdline _ := none

theorem plainVisit_loopTable : plainVisit loopTable 2 = .ok (.next 3) ∧ plainVisit loopTable 3 = .ok (.next 2) := by
  decide

theorem plainWalk_loopTable (rounds : Nat) :
    plainWalk loopTable rounds 2 = .ok none ∧ plainWalk loopTable rounds 3 = .ok none := by
  induction rounds with
  | zero => exact ⟨rfl, rfl⟩
  | succ rounds ih =>
    rw [plainWalk, plainWalk, plainVisit_loopTable.1, plainVisit_loopTable.2]
    exact ⟨ih.2, ih.1⟩

/-- Neither is its own parent, and the walk from either never ends. -/
theorem loopTable_runs_on : (∀ pid, ¬ Parent loopTable pid pid) ∧
    ∀ clock rounds, (getAppidFromPid loopTable clock rounds 2 emptyCache).1 = .ok none := by
  constructor
  · rintro pid ⟨s, hstat, hparent⟩
    simp only [loopTable] at hstat
    split_ifs at hstat with h2 h3
    · obtain rfl := Option.some.inj hstat
      obtain rfl : 3 = pid := Option.some.inj hparent
      exact absurd h2 (by decide)
    · obtain rfl := Option.some.inj hstat
      obtain rfl : 2 = pid := Option.some.inj hparent
      exact absurd h3 (by decide)
  · intro clock rounds
    have hreach : exec (lookup loopTable clock) emptyCache [] = some emptyCache := rfl
    obtain ⟨c', hwalk, -⟩ := getAppidFromPid_sound rounds (sound_of_exec hreach)
    rw [hwalk]
    exact (plainWalk_loopTable rounds).1

end Moonshine.Proof.Compositor
