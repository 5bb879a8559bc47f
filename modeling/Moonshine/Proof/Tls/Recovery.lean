import Mathlib.Data.List.Infix
import Moonshine.Framework.Run
import Moonshine.Impl.Tls

/-!
# Interrupted certificate creation

The files are sound while there are none, or both are there and hold a certificate and
its key (`Sound`); these are the files from which the next call that nothing fails
recovers (`recovers_iff`). From there a call leaves sound files again unless it creates
the certificate file and then does not get both files whole (`sound_iff_not_interrupted`),
so that a run can be recovered from after each of its calls exactly if none of them is
interrupted in this way: `recoverable_iff`.
-/

namespace Moonshine.Proof.Tls

open Moonshine.Framework Moonshine.Impl.Tls

/-- What is known of the texts `create_certificate` returns. -/
structure Pems where
  /-- To the last byte, a certificate and the key it was made for. -/
  isPair : Pem → Pem → Bool
  /-- A certificate cut short is none. -/
  eq_of_prefix : ∀ {cert cert' pkey pkey' : Pem}, isPair cert pkey → cert' <+: cert → isPair cert' pkey' →
    cert' = cert
  key_unique : ∀ {cert pkey pkey' : Pem}, isPair cert pkey → isPair cert pkey' → pkey' = pkey

variable {x : Pems}

/-- The bytes that end up in the file. -/
def count : Write → Nat
  | .wrote n => n
  | .failed => 0
  | .stopped n => n

def outcome : Write → Outcome Unit
  | .wrote _ => .ok ⟨⟩
  | .failed => .err
  | .stopped _ => .panic

/-- The call, where it gets there, opens the file for writing. -/
def opens (c : Call) (name : FileName) : Bool := c.createDir name = .ok ⟨⟩ && c.createFile name = .ok ⟨⟩

variable {c : Call} {name : FileName} {text cert pkey : Pem} {files : Files}

theorem create_of_opens (h : opens c name = true) : c.create name text files =
    (outcome (c.write name), Function.update files name (some (text.take (count (c.write name))))) := by
  obtain ⟨hdir, hfile⟩ : c.createDir name = .ok ⟨⟩ ∧ c.createFile name = .ok ⟨⟩ := by simpa [opens] using h
  rw [Call.create, hdir, Prog.liftM_bind_ok, hfile, Prog.liftM_bind_ok, Prog.modify_bind]
  cases hwrite : c.write name with
  | wrote n => simp [outcome, count]
  | failed => simp [outcome, count]
  | stopped n => simp [outcome, count]

/-- Otherwise it ends there, with the files as they were. -/
theorem create_of_not_opens (h : opens c name = false) :
    ∃ o : Outcome Unit, o ≠ .ok ⟨⟩ ∧ c.create name text files = (o, files) := by
  rw [Call.create]
  cases hdir : c.createDir name with
  | err => exact ⟨.err, by simp, rfl⟩
  | panic => exact ⟨.panic, by simp, rfl⟩
  | ok u =>
    cases hfile : c.createFile name with
    | err => exact ⟨.err, by simp, rfl⟩
    | panic => exact ⟨.panic, by simp, rfl⟩
    | ok v => simp [opens, hdir, hfile] at h

/-- The files once the certificate file is open. -/
def leave (c : Call) (cert pkey : Pem) (files : Files) : Files :=
  let files := Function.update files .certificate (some (cert.take (count (c.write .certificate))))
  if outcome (c.write .certificate) = .ok ⟨⟩ ∧ opens c .privateKey then
    Function.update files .privateKey (some (pkey.take (count (c.write .privateKey))))
  else files

theorem leave_certificate : leave c cert pkey files .certificate =
    some (cert.take (count (c.write .certificate))) := by
  rw [leave]
  split <;> simp

theorem leave_privateKey : leave c cert pkey files .privateKey =
    if outcome (c.write .certificate) = .ok ⟨⟩ ∧ opens c .privateKey then
      some (pkey.take (count (c.write .privateKey)))
    else files .privateKey := by
  rw [leave]
  split <;> simp only [Function.update_self, Function.update_of_ne, ne_eq, reduceCtorEq, not_false_eq_true]

section Missing

variable (hmissing : c.missing files = true) (hcreate : c.createCertificate = .ok (cert, pkey))

include hmissing hcreate

theorem load_of_missing : c.loadOrCreateCertificate files = (do
    c.create .certificate cert
    c.create .privateKey pkey
    return (cert, pkey) : Prog Files (Pem × Pem)) files := by
  rw [Call.loadOrCreateCertificate, Prog.gets_bind, if_pos hmissing, hcreate]
  rfl

theorem load_of_not_opens (h : opens c .certificate = false) : (c.loadOrCreateCertificate files).2 = files := by
  obtain ⟨o, ho, hstep⟩ : ∃ o, o ≠ .ok () ∧ c.create .certificate cert files = (o, files) :=
    create_of_not_opens h
  rw [load_of_missing hmissing hcreate]
  cases o with
  | ok u => exact absurd rfl ho
  | err => rw [Prog.bind_of_err hstep]
  | panic => rw [Prog.bind_of_panic hstep]

theorem load_of_opens (h : opens c .certificate = true) :
    (c.loadOrCreateCertificate files).2 = leave c cert pkey files := by
  rw [load_of_missing hmissing hcreate]
  have hstep : c.create .certificate cert files = _ := create_of_opens h
  cases hwrite : c.write .certificate with
  | failed =>
    rw [hwrite] at hstep
    rw [Prog.bind_of_err hstep, leave, hwrite]
    simp [outcome]
  | stopped n =>
    rw [hwrite] at hstep
    rw [Prog.bind_of_panic hstep, leave, hwrite]
    simp [outcome]
  | wrote n =>
    rw [hwrite] at hstep
    rw [Prog.bind_of_ok hstep, Prog.bind_pure_state, leave, hwrite]
    cases hkey : opens c .privateKey with
    | true => simp [create_of_opens hkey, outcome]
    | false =>
      obtain ⟨o, -, hstep⟩ : ∃ o, o ≠ .ok () ∧ c.create .privateKey pkey
          (Function.update files .certificate (some (cert.take n))) = (o, _) := create_of_not_opens hkey
      simp [hstep, count]

/-- What is returned is what was created. -/
theorem load_eq_ok {pair : Pem × Pem} (h : (c.loadOrCreateCertificate files).1 = .ok pair) :
    pair = (cert, pkey) := by
  have hrun : c.loadOrCreateCertificate files = (.ok pair, (c.loadOrCreateCertificate files).2) :=
    Prod.ext h rfl
  rw [load_of_missing hmissing hcreate, Prog.bind_eq_ok] at hrun
  obtain ⟨u, m, -, hrun⟩ := hrun
  obtain ⟨v, m', -, hrun⟩ := Prog.bind_eq_ok.mp hrun
  exact (Outcome.ok.inj (Prod.mk.inj hrun).1).symm

end Missing

theorem load_of_createCertificate (hmissing : c.missing files = true)
    (hcreate : ∀ pair, c.createCertificate ≠ .ok pair) :
    (c.loadOrCreateCertificate files).2 = files ∧ ∀ pair, (c.loadOrCreateCertificate files).1 ≠ .ok pair := by
  rw [Call.loadOrCreateCertificate, Prog.gets_bind, if_pos hmissing]
  cases h : c.createCertificate with
  | ok pair => exact absurd h (hcreate pair)
  | err => exact ⟨rfl, fun _ => by simp [Prog.bind_of_err]⟩
  | panic => exact ⟨rfl, fun _ => by simp [Prog.bind_of_panic]⟩

/-- The text of a file that is there, if the call can read it. -/
def readable (c : Call) (files : Files) (name : FileName) : Outcome Pem := do
  let text ← Outcome.ofOption (files name)
  c.read name
  return text

theorem readable_eq_ok : readable c files name = .ok text ↔ files name = some text ∧ c.read name = .ok () := by
  simp only [readable, Outcome.bind_eq_ok, Outcome.ofOption_eq_ok, Outcome.pure_eq, Outcome.ok.injEq]
  constructor
  · rintro ⟨_, hfile, _, hread, rfl⟩
    exact ⟨hfile, hread⟩
  · rintro ⟨hfile, hread⟩
    exact ⟨text, hfile, (), hread, rfl⟩

theorem readToString_run : c.readToString name files = (readable c files name, files) := by
  rw [Call.readToString, Prog.gets_bind, readable]
  cases files name with
  | none => rfl
  | some text => cases c.read name <;> simp [Prog.liftM_bind_ok, Prog.bind_of_err, Prog.bind_of_panic]

/-- A call that finds a file reads both. -/
theorem load_of_found (h : c.missing files = false) : c.loadOrCreateCertificate files =
    ((do let cert ← readable c files .certificate
         let pkey ← readable c files .privateKey
         return (cert, pkey)), files) := by
  rw [Call.loadOrCreateCertificate, Prog.gets_bind, if_neg (by simp [h])]
  cases hcert : readable c files .certificate with
  | err => rw [Prog.bind_of_err (by rw [readToString_run, hcert]), Outcome.err_bind]
  | panic => rw [Prog.bind_of_panic (by rw [readToString_run, hcert]), Outcome.panic_bind]
  | ok cert =>
    rw [Prog.bind_of_ok (by rw [readToString_run, hcert]), Outcome.ok_bind]
    cases hkey : readable c files .privateKey with
    | err => rw [Prog.bind_of_err (by rw [readToString_run, hkey]), Outcome.err_bind]
    | panic => rw [Prog.bind_of_panic (by rw [readToString_run, hkey]), Outcome.panic_bind]
    | ok pkey => rw [Prog.bind_of_ok (by rw [readToString_run, hkey])]; rfl

theorem load_of_found_eq_ok (h : c.missing files = false) {pair : Pem × Pem} :
    (c.loadOrCreateCertificate files).1 = .ok pair ↔
      readable c files .certificate = .ok pair.1 ∧ readable c files .privateKey = .ok pair.2 := by
  simp only [load_of_found h, Outcome.bind_eq_ok, Outcome.pure_eq, Outcome.ok.injEq]
  constructor
  · rintro ⟨cert, hcert, pkey, hpkey, rfl⟩
    exact ⟨hcert, hpkey⟩
  · rintro ⟨hcert, hpkey⟩
    exact ⟨_, hcert, _, hpkey, rfl⟩

/-- The files hold this certificate and its key. -/
structure Holds (x : Pems) (files : Files) (pair : Pem × Pem) : Prop where
  isPair : x.isPair pair.1 pair.2
  certificate : files .certificate = some pair.1
  privateKey : files .privateKey = some pair.2

def Sound (x : Pems) (files : Files) : Prop := (∀ name, files name = none) ∨ ∃ pair, Holds x files pair

/-- The call whose operations all succeed. -/
def succeeding (cert pkey : Pem) : Call where
  seen _ := true
  createCertificate := .ok (cert, pkey)
  createDir _ := .ok ()
  createFile _ := .ok ()
  write name := .wrote (if name = .certificate then cert.length else pkey.length)
  read _ := .ok ()

/-- The next call, if all its operations succeed, returns a certificate and its key, which the
files then hold: they held them before, or both are new. -/
def Recovers (x : Pems) (files : Files) : Prop :=
  ∀ cert pkey, x.isPair cert pkey → ∃ pair files',
    (succeeding cert pkey).loadOrCreateCertificate files = (.ok pair, files') ∧ Holds x files' pair ∧
      (files' = files ∨ pair = (cert, pkey))

@[simp] theorem missing_succeeding :
    (succeeding cert pkey).missing files = ((files .certificate).isNone && (files .privateKey).isNone) := by
  simp [Call.missing, Call.exist, succeeding]

theorem readable_succeeding : readable (succeeding cert pkey) files name = .ok text ↔ files name = some text := by
  simp [readable_eq_ok, succeeding]

theorem load_succeeding (h : ∀ name, files name = none) :
    (succeeding cert pkey).loadOrCreateCertificate files = (.ok (cert, pkey),
      Function.update (Function.update files .certificate (some cert)) .privateKey (some pkey)) := by
  have hopens : ∀ name, opens (succeeding cert pkey) name = true := fun name => by simp [opens, succeeding]
  rw [load_of_missing (by simp [h]) (by rfl), Prog.bind_of_ok (create_of_opens (hopens _)),
    Prog.bind_of_ok (create_of_opens (hopens _))]
  simp [succeeding, count]

theorem recovers_of_sound (h : Sound x files) : Recovers x files := by
  intro cert pkey hpair
  obtain hnone | ⟨pair, hpair', hcert, hkey⟩ := h
  · exact ⟨(cert, pkey), _, load_succeeding hnone, ⟨hpair, by simp, by simp⟩, .inr rfl⟩
  · have hfound : (succeeding cert pkey).missing files = false := by simp [hcert]
    refine ⟨pair, files, ?_, ⟨hpair', hcert, hkey⟩, .inl rfl⟩
    refine Prod.ext ?_ (by rw [load_of_found hfound])
    exact (load_of_found_eq_ok hfound).mpr
      ⟨readable_succeeding.mpr hcert, readable_succeeding.mpr hkey⟩

/-- There is a certificate to be made, so that recovery is tried. -/
theorem sound_of_recovers (hpair : x.isPair cert pkey) (h : Recovers x files) : Sound x files := by
  obtain ⟨pair, files', hrun, hholds, -⟩ := h cert pkey hpair
  by_cases hfound : (succeeding cert pkey).missing files = false
  · rw [load_of_found hfound] at hrun
    exact .inr ⟨pair, (Prod.mk.inj hrun).2 ▸ hholds⟩
  · have hnone : files .certificate = none ∧ files .privateKey = none := by simpa using hfound
    refine .inl fun name => ?_
    cases name with
    | certificate => exact hnone.1
    | privateKey => exact hnone.2

theorem recovers_iff (hpair : x.isPair cert pkey) : Recovers x files ↔ Sound x files :=
  ⟨sound_of_recovers hpair, recovers_of_sound⟩

/-- A certificate that the call would create comes with its key, which is not yet on disk. -/
def fresh (x : Pems) (files : Files) (c : Call) : Bool :=
  match c.createCertificate with
  | .ok (cert, pkey) => x.isPair cert pkey && files .privateKey ≠ some pkey
  | .err => true
  | .panic => true

def step (x : Pems) (files : Files) (c : Call) : Option Files :=
  if fresh x files c then some (c.loadOrCreateCertificate files).2 else none

/-- The call returns no certificate but with its key, and leaves files the next one recovers from. -/
def Recoverable (x : Pems) (files : Files) (c : Call) (files' : Files) : Prop :=
  (∀ pair, (c.loadOrCreateCertificate files).1 = .ok pair → x.isPair pair.1 pair.2) ∧ Recovers x files'

/-- Both files get all of their text. -/
def whole (c : Call) (cert pkey : Pem) : Bool :=
  outcome (c.write .certificate) = .ok () && cert.length ≤ count (c.write .certificate) &&
    opens c .privateKey && pkey.length ≤ count (c.write .privateKey)

/-- The call opens the certificate file, and does not get both files whole. -/
def interrupted (files : Files) (c : Call) : Bool :=
  match c.createCertificate with
  | .ok (cert, pkey) => c.missing files && opens c .certificate && !whole c cert pkey
  | .err => false
  | .panic => false

section Leave

variable (hpair : x.isPair cert pkey) (hfresh : files .privateKey ≠ some pkey)

include hpair

theorem holds_leave (h : whole c cert pkey = true) : Holds x (leave c cert pkey files) (cert, pkey) := by
  simp only [whole, Bool.and_eq_true, decide_eq_true_eq] at h
  obtain ⟨⟨⟨hcert, hlen⟩, hopens⟩, hlen'⟩ := h
  exact ⟨hpair, by rw [leave_certificate, List.take_of_length_le hlen],
    by rw [leave_privateKey, if_pos ⟨hcert, hopens⟩, List.take_of_length_le hlen']⟩

include hfresh

/-- A pair that holds one of the texts created holds both of them whole. -/
theorem whole_of_holds {pair : Pem × Pem} (h : Holds x (leave c cert pkey files) pair) :
    whole c cert pkey = true := by
  obtain ⟨hisPair, hcert, hkey⟩ := h
  rw [leave_certificate, Option.some.injEq] at hcert
  have htake : cert.take (count (c.write .certificate)) = cert :=
    x.eq_of_prefix hpair (List.take_prefix _ _) (hcert ▸ hisPair)
  have hpkey : pair.2 = pkey := by
    rw [← hcert, htake] at hisPair
    exact x.key_unique hpair hisPair
  rw [leave_privateKey, hpkey] at hkey
  split at hkey
  next hwritten =>
    rw [Option.some.injEq, List.take_eq_self_iff] at hkey
    rw [List.take_eq_self_iff] at htake
    simp [whole, hwritten, htake, hkey]
  next => exact absurd hkey hfresh

theorem sound_leave_iff : Sound x (leave c cert pkey files) ↔ whole c cert pkey = true := by
  refine ⟨fun h => ?_, fun h => .inr ⟨_, holds_leave hpair h⟩⟩
  obtain hnone | ⟨pair, h⟩ := h
  · have hnone := hnone .certificate
    rw [leave_certificate] at hnone
    cases hnone
  · exact whole_of_holds hpair hfresh h

end Leave

theorem step_eq_some {files' : Files} : step x files c = some files' ↔
    fresh x files c = true ∧ (c.loadOrCreateCertificate files).2 = files' := by
  rw [step]
  split <;> simp_all

theorem fresh_iff : fresh x files c = true ↔ ∀ cert pkey, c.createCertificate = .ok (cert, pkey) →
    x.isPair cert pkey ∧ files .privateKey ≠ some pkey := by
  rw [fresh]
  cases c.createCertificate with
  | ok pair =>
    obtain ⟨cert, pkey⟩ := pair
    simp
  | err => simp
  | panic => simp

theorem interrupted_of_createCertificate (h : c.createCertificate = .ok (cert, pkey)) :
    interrupted files c = (c.missing files && opens c .certificate && !whole c cert pkey) := by
  rw [interrupted, h]

theorem interrupted_of_not_ok (h : ∀ pair, c.createCertificate ≠ .ok pair) : interrupted files c = false := by
  rw [interrupted]
  cases hcreate : c.createCertificate with
  | ok pair => exact absurd hcreate (h pair)
  | err => rfl
  | panic => rfl

/-- From sound files a call leaves sound ones unless it is interrupted. -/
theorem sound_iff_not_interrupted (hsound : Sound x files) (hfresh : fresh x files c = true) :
    Sound x (c.loadOrCreateCertificate files).2 ↔ interrupted files c = false := by
  by_cases hcreate : ∃ cert pkey, c.createCertificate = .ok (cert, pkey)
  · obtain ⟨cert, pkey, hcreate⟩ := hcreate
    obtain ⟨hpair, hkey⟩ := fresh_iff.mp hfresh cert pkey hcreate
    rw [interrupted_of_createCertificate hcreate]
    cases hmissing : c.missing files with
    | false => simp [load_of_found hmissing, hsound]
    | true =>
      cases hopens : opens c .certificate with
      | false => simp [load_of_not_opens hmissing hcreate hopens, hsound]
      | true => simp [load_of_opens hmissing hcreate hopens, sound_leave_iff hpair hkey]
  · have hnot : ∀ pair, c.createCertificate ≠ .ok pair := fun pair h => hcreate ⟨pair.1, pair.2, h⟩
    rw [interrupted_of_not_ok hnot]
    cases hmissing : c.missing files with
    | false => simp [load_of_found hmissing, hsound]
    | true => simp [(load_of_createCertificate hmissing hnot).1, hsound]

/-- What a call returns from sound files is a certificate and its key, however the call goes on
for the files. -/
theorem isPair_of_load {pair : Pem × Pem} (hsound : Sound x files) (hfresh : fresh x files c = true)
    (h : (c.loadOrCreateCertificate files).1 = .ok pair) : x.isPair pair.1 pair.2 := by
  cases hmissing : c.missing files with
  | true =>
    by_cases hcreate : ∃ made, c.createCertificate = .ok made
    · obtain ⟨⟨cert, pkey⟩, hcreate⟩ := hcreate
      rw [load_eq_ok hmissing hcreate h]
      exact (fresh_iff.mp hfresh cert pkey hcreate).1
    · exact absurd h ((load_of_createCertificate hmissing (not_exists.mp hcreate)).2 pair)
  | false =>
    obtain ⟨hcert, hkey⟩ := (load_of_found_eq_ok hmissing).mp h
    obtain ⟨hcert, -⟩ := readable_eq_ok.mp hcert
    obtain ⟨hkey, -⟩ := readable_eq_ok.mp hkey
    obtain hnone | ⟨held, hpair, hcert', hkey'⟩ := hsound
    · exact absurd (hcert.symm.trans (hnone .certificate)) (by simp)
    · rw [Option.some.inj (hcert.symm.trans hcert'), Option.some.inj (hkey.symm.trans hkey')]
      exact hpair

/-- An interrupted call had a certificate to write. -/
theorem exists_pair_of_interrupted (hfresh : fresh x files c = true) (h : interrupted files c = true) :
    ∃ cert pkey, x.isPair cert pkey = true := by
  by_cases hcreate : ∃ made, c.createCertificate = .ok made
  · obtain ⟨⟨cert, pkey⟩, hcreate⟩ := hcreate
    exact ⟨cert, pkey, (fresh_iff.mp hfresh cert pkey hcreate).1⟩
  · rw [interrupted_of_not_ok (not_exists.mp hcreate)] at h
    cases h

theorem recoverable_step_iff {files' : Files} (hsound : Sound x files) (h : step x files c = some files') :
    Recoverable x files c files' ↔ interrupted files c = false := by
  obtain ⟨hfresh, rfl⟩ := step_eq_some.mp h
  have hiff := sound_iff_not_interrupted hsound hfresh
  constructor
  · rintro ⟨-, hrecovers⟩
    by_contra hinterrupted
    rw [Bool.not_eq_false] at hinterrupted
    obtain ⟨cert, pkey, hpair⟩ := exists_pair_of_interrupted hfresh hinterrupted
    rw [hiff.mp (sound_of_recovers hpair hrecovers)] at hinterrupted
    cases hinterrupted
  · exact fun hnot => ⟨fun _ => isPair_of_load hsound hfresh, recovers_of_sound (hiff.mpr hnot)⟩

/-- From where there are no files, every call can be recovered from exactly if none is interrupted
with the certificate file open. -/
theorem recoverable_iff (es : List Call) :
    EveryStep (step x) (Recoverable x) (fun _ => none) es ↔
      EveryStep (step x) (fun files c _ => interrupted files c = false) (fun _ => none) es := by
  have hnone : Sound x fun _ => none := .inl fun _ => rfl
  refine EveryStep.iff_of_inv ?_ ?_ hnone es
  · exact fun _ _ _ hsound h => recoverable_step_iff hsound h
  · intro files c files' hsound h hnot
    obtain ⟨hfresh, rfl⟩ := step_eq_some.mp h
    exact (sound_iff_not_interrupted hsound hfresh).mpr hnot

/-- One certificate and its key. -/
def onePair : Pems where
  isPair cert pkey := cert = [1] && pkey = [2]
  eq_of_prefix h _ h' := by simp_all
  key_unique h h' := by simp_all

/-- The process stops before it creates the key's directory. -/
def stopsBetween : Call :=
  { succeeding [1] [2] with createDir := fun name => if name = .certificate then .ok () else .panic }

/-- The next call finds the certificate and fails for want of the key. -/
theorem not_recoverable_stopsBetween :
    ¬ EveryStep (step onePair) (Recoverable onePair) (fun _ => none) [stopsBetween] := by
  intro h
  obtain ⟨pair, files, hrun, -⟩ := (h _ rfl).1.2 [1] [2] rfl
  have herr : ((succeeding [1] [2]).loadOrCreateCertificate
      (stopsBetween.loadOrCreateCertificate fun _ => none).2).1 = .err := rfl
  rw [hrun] at herr
  cases herr

end Moonshine.Proof.Tls
