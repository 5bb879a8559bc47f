import Moonshine.Framework.Xml
import Moonshine.Impl.Webserver.Documents

/-!
# What a client reads

The five replacements of `escape_xml` are the escaping of the markup (`escapeXml_eq`), so the
documents are XML if the titles and messages have only its characters (`appList_eq`,
`xmlError_eq`). A client that reads the list of applications gets the titles and IDs of the applications, in
their order, and an ID that it sends back is that of the first application with it.
-/

namespace Moonshine.Proof.Documents

open Moonshine.Framework Moonshine.Impl Moonshine.Impl.AppScanner Moonshine.Impl.Rtsp Moonshine.Impl.Webserver
open Moonshine.Framework.Xml (Token)

/-- A replacement of a single character. -/
def replacing (c : Char) (new : List Char) (d : Char) : List Char := if d = c then new else [d]

theorem replace_eq (pattern : String) (c : Char) (h : pattern.toList = [c]) (new : String) (cs : List Char) :
    replace cs pattern new = cs.flatMap (replacing c new.toList) := by
  unfold replace
  rw [h]
  induction cs with
  | nil => rfl
  | cons d cs ih =>
    rw [replaceFrom, List.flatMap_cons, ← ih]
    by_cases hd : d = c
    · rw [replacing, if_pos hd, if_pos (by simp [List.isPrefixOf, hd])]
      rfl
    · rw [replacing, if_neg hd, if_neg (by simp [List.isPrefixOf, Ne.symm hd])]
      rfl

/-- One character, replaced five times. -/
theorem replacing_eq (c : Char) :
    ((((replacing '&' "&amp;".toList c).flatMap (replacing '<' "&lt;".toList)).flatMap
      (replacing '>' "&gt;".toList)).flatMap (replacing '"' "&quot;".toList)).flatMap
        (replacing '\'' "&apos;".toList) = Xml.escapeChar c := by
  by_cases hc : c ∈ Xml.markup
  · simp only [Xml.markup, List.mem_cons, List.not_mem_nil, or_false] at hc
    rcases hc with rfl | rfl | rfl | rfl | rfl <;> decide
  · have hne := hc
    simp only [Xml.markup, List.mem_cons, List.not_mem_nil, or_false, not_or] at hne
    rw [Xml.escapeChar_of_notMem hc]
    simp [replacing, hne]

theorem escapeXml_eq (input : List Char) : escapeXml input = Xml.escape input := by
  unfold escapeXml Xml.escape
  simp only
  rw [replace_eq "&" '&' rfl, replace_eq "<" '<' rfl, replace_eq ">" '>' rfl, replace_eq "\"" '"' rfl,
    replace_eq "'" '\'' rfl]
  simp only [List.flatMap_assoc]
  refine List.flatMap_congr fun c _ => ?_
  rw [← replacing_eq]
  simp only [List.flatMap_assoc]

variable (hash : String → UInt64) (hdrSupported : Bool)

/-- An element with a text. -/
def leaf (name : String) (content : List Char) : List Token :=
  Xml.element name.toList [] (Xml.textOf content)

def appTokens (application : ApplicationConfig) : List Token :=
  Xml.element "App".toList [] (leaf "IsHdrSupported" (decimal (if hdrSupported then 1 else 0)) ++
    (leaf "AppTitle" application.title.toList ++ leaf "ID" (decimal (application.id hash).toInt)))

def appListTokens (applications : List ApplicationConfig) : List Token :=
  Xml.element "root".toList [("status_code".toList, "200".toList)] (applications.flatMap (appTokens hash hdrSupported))

def errorTokens (statusCode : UInt16) (message : List Char) : List Token :=
  Xml.element "root".toList
    [("status_code".toList, decimal statusCode.toNat), ("status_message".toList, message)] []

theorem isValue_decimal (n : Int) : Xml.IsValue (decimal n) := fun c hc => by
  rcases mem_decimal hc with rfl | hdigit
  · decide
  · rw [Char.isDigit, Bool.and_eq_true, decide_eq_true_eq, decide_eq_true_eq] at hdigit
    have hlow : 48 ≤ c.toNat := hdigit.1
    have hhigh : c.toNat ≤ 57 := hdigit.2
    have hblank : ' ' ≤ c := Nat.le_trans (by decide : (' ' : Char).toNat ≤ 48) hlow
    refine ⟨?_, ?_⟩
    · simp only [Xml.isXmlChar, hblank, decide_true, Bool.true_and, Bool.or_eq_true, Bool.and_eq_true,
        decide_eq_true_eq]
      omega
    · simp only [List.mem_cons, List.not_mem_nil, or_false]
      rintro (rfl | rfl | rfl) <;> revert hlow <;> decide

theorem enclosed_leaf {name : String} (h : Xml.IsName name.toList) {content : List Char}
    (hcontent : Xml.IsText content) : Xml.Enclosed (leaf name content) :=
  Xml.enclosed_element h nofun (Xml.wellFormed_textOf hcontent)

theorem enclosed_appTokens {application : ApplicationConfig} (htitle : Xml.IsText application.title.toList) :
    Xml.Enclosed (appTokens hash hdrSupported application) :=
  Xml.enclosed_element (by decide) nofun
    ((enclosed_leaf (by decide) (isValue_decimal _).isText).append
      ((enclosed_leaf (by decide) htitle).append (enclosed_leaf (by decide) (isValue_decimal _).isText))).wellFormed

theorem wellFormed_appListTokens {applications : List ApplicationConfig}
    (htitles : ∀ a ∈ applications, Xml.IsText a.title.toList) :
    Xml.WellFormed (appListTokens hash hdrSupported applications) :=
  (Xml.enclosed_element (by decide) (by decide)
    (Xml.enclosed_flatMap fun a ha => enclosed_appTokens hash hdrSupported (htitles a ha)).wellFormed).wellFormed

theorem wellFormed_errorTokens (statusCode : UInt16) {message : List Char} (hmessage : Xml.IsValue message) :
    Xml.WellFormed (errorTokens statusCode message) := by
  refine (Xml.enclosed_element (by decide) (fun a ha => ?_) Xml.enclosed_nil.wellFormed).wellFormed
  rcases List.mem_cons.mp ha with rfl | ha
  · exact ⟨(by decide +kernel : Xml.IsName "status_code".toList), isValue_decimal statusCode.toNat⟩
  · rw [List.mem_singleton.mp ha]
    exact ⟨(by decide +kernel : Xml.IsName "status_message".toList), hmessage⟩

theorem nested_leaf (name : String) (content : List Char) : Xml.Nested (leaf name content) :=
  Xml.Nested.element (Xml.nested_textOf content)

theorem nested_appListTokens (applications : List ApplicationConfig) :
    Xml.nested [] (appListTokens hash hdrSupported applications) :=
  Xml.nested_root (Xml.nested_flatMap (fun _ => Xml.Nested.element
    (Xml.Nested.append (nested_leaf _ _) (Xml.Nested.append (nested_leaf _ _) (nested_leaf _ _)))) applications)

/-- A number has no characters to escape. -/
theorem escape_decimal (n : Int) : Xml.escape (decimal n) = decimal n := by
  refine (List.flatMap_congr fun c hc => Xml.escapeChar_of_notMem fun hm => ?_).trans (List.flatMap_singleton' _)
  simp only [Xml.markup, List.mem_cons, List.not_mem_nil, or_false] at hm
  rcases mem_decimal hc with h | h <;> rcases hm with rfl | rfl | rfl | rfl | rfl <;> revert h <;> decide

theorem render_leaf {name before after : String} (hbefore : before.toList = '<' :: (name.toList ++ ['>']))
    (hafter : after.toList = '<' :: '/' :: (name.toList ++ ['>'])) (content : List Char) :
    Xml.render (leaf name content) = before.toList ++ Xml.escape content ++ after.toList := by
  rw [leaf, Xml.render_element, Xml.render_textOf, hbefore, hafter, Token.render, Token.render, List.flatMap_nil,
    List.append_nil]
  rfl

theorem appEntry_eq (application : ApplicationConfig) :
    appEntry hash hdrSupported application = Xml.render (appTokens hash hdrSupported application) := by
  have hstart : (Token.start "App".toList []).render = "<App>".toList := by decide +kernel
  have hstop : (Token.stop "App".toList).render = "</App>".toList := by decide +kernel
  unfold appEntry appTokens
  rw [Xml.render_element, Xml.render_append, Xml.render_append, hstart, hstop, escapeXml_eq,
    render_leaf (by decide +kernel : "<IsHdrSupported>".toList = _) (by decide +kernel : "</IsHdrSupported>".toList = _),
    render_leaf (by decide +kernel : "<AppTitle>".toList = _) (by decide +kernel : "</AppTitle>".toList = _),
    render_leaf (by decide +kernel : "<ID>".toList = _) (by decide +kernel : "</ID>".toList = _),
    escape_decimal, escape_decimal]
  simp only [List.append_assoc]

theorem appList_eq (applications : List ApplicationConfig) :
    appList hash hdrSupported applications = Xml.render (appListTokens hash hdrSupported applications) := by
  have hstart : (Token.start "root".toList [("status_code".toList, "200".toList)]).render =
    "<root status_code=\"200\">".toList := by decide +kernel
  have hstop : (Token.stop "root".toList).render = "</root>".toList := by decide +kernel
  have hentries : appEntry hash hdrSupported = fun application => Xml.render (appTokens hash hdrSupported application) :=
    funext (appEntry_eq hash hdrSupported)
  unfold appList appListTokens
  rw [Xml.render_element, Xml.render_flatMap, hstart, hstop, hentries]

theorem xmlError_eq (statusCode : UInt16) (message : List Char) :
    xmlError statusCode message = Xml.render (errorTokens statusCode message) := by
  have hcode : "<root status_code=\"".toList = '<' :: ("root".toList ++ ' ' :: ("status_code".toList ++ ['=', '"'])) := by
    decide +kernel
  have hmessage : "\" status_message=\"".toList = '"' :: ' ' :: ("status_message".toList ++ ['=', '"']) := by
    decide +kernel
  have hend : "\"></root>".toList = '"' :: '>' :: (Token.stop "root".toList).render := by decide +kernel
  unfold xmlError errorTokens
  rw [Xml.render_element, escapeXml_eq, hcode, hmessage, hend, Token.render]
  simp only [Xml.renderAttribute, escape_decimal, List.flatMap_cons, List.flatMap_nil, Xml.render, List.append_assoc,
    List.cons_append, List.nil_append, List.append_nil]

/-- What a client learns of an application. -/
structure Listed where
  hdrSupported : Bool
  title : List Char
  id : Int32
  deriving DecidableEq, Repr

/-- The text of the element that comes first. -/
def readLeaf (name : String) : List Token → Option (List Char × List Token)
  | .start name' _ :: .text content :: .stop _ :: tokens =>
    if name' = name.toList then some (content, tokens) else none
  | .start name' _ :: .stop _ :: tokens => if name' = name.toList then some ([], tokens) else none
  | _ => none

/-- The applications, up to the end of the root. -/
def readApps : (fuel : Nat) → List Token → Option (List Listed)
  | fuel + 1, .start _ _ :: tokens => do
    let (hdr, tokens) ← readLeaf "IsHdrSupported" tokens
    let (title, tokens) ← readLeaf "AppTitle" tokens
    let (id, tokens) ← readLeaf "ID" tokens
    let id ← Negotiation.parseI32 id
    let listed ← readApps fuel (tokens.drop 1)
    return ⟨hdr = "1".toList, title, id⟩ :: listed
  | _, [.stop _] => some []
  | _, _ => none

/-- `none` if the document is not XML, or does not begin with the status 200. -/
def readAppList (body : List Char) : Option (List Listed) :=
  match Xml.parse body with
  | some (.start name attributes :: tokens) =>
    if name = "root".toList ∧ ("status_code".toList, "200".toList) ∈ attributes then readApps tokens.length tokens
    else none
  | _ => none

theorem readLeaf_leaf (name : String) (content : List Char) (tokens : List Token) :
    readLeaf name (leaf name content ++ tokens) = some (content, tokens) := by
  by_cases h : content = []
  · rw [leaf, Xml.textOf, if_pos h, h]
    exact if_pos rfl
  · rw [leaf, Xml.textOf, if_neg h]
    exact if_pos rfl

theorem parseI32_decimal (id : Int32) : Negotiation.parseI32 (decimal id.toInt) = some id := by
  have hmin : -2 ^ 31 ≤ id.toInt := id.minValue_le_toInt
  have hmax : id.toInt < 2 ^ 31 := id.toInt_lt
  rw [Negotiation.parseI32, parseSigned_decimal hmin hmax, Option.map_some, Int32.ofInt_toInt]

def listing (application : ApplicationConfig) : Listed :=
  ⟨hdrSupported, application.title.toList, application.id hash⟩

theorem readApps_appTokens (applications : List ApplicationConfig) {fuel : Nat} (h : applications.length ≤ fuel) :
    readApps fuel (applications.flatMap (appTokens hash hdrSupported) ++ [.stop "root".toList]) =
      some (applications.map (listing hash hdrSupported)) := by
  induction applications generalizing fuel with
  | nil => cases fuel <;> rfl
  | cons application applications ih =>
    obtain _ | fuel := fuel
    · cases h
    have hflag : (decide (decimal (if hdrSupported then 1 else 0) = "1".toList)) = hdrSupported := by
      cases hdrSupported <;> decide
    have hsplit : (application :: applications).flatMap (appTokens hash hdrSupported) ++ [.stop "root".toList] =
        .start "App".toList [] :: (leaf "IsHdrSupported" (decimal (if hdrSupported then 1 else 0)) ++
          (leaf "AppTitle" application.title.toList ++ (leaf "ID" (decimal (application.id hash).toInt) ++
            (.stop "App".toList :: (applications.flatMap (appTokens hash hdrSupported) ++
              [.stop "root".toList]))))) := by
      simp [appTokens, Xml.element]
    rw [hsplit, readApps]
    simp only [readLeaf_leaf, Option.bind_eq_bind, Option.bind_some, parseI32_decimal, List.drop_succ_cons,
      List.drop_zero, ih (Nat.le_of_succ_le_succ h), hflag]
    rfl

theorem length_le_tokens (applications : List ApplicationConfig) (more : List Token) :
    applications.length ≤ (applications.flatMap (appTokens hash hdrSupported) ++ more).length := by
  induction applications with
  | nil => exact Nat.zero_le _
  | cons application applications ih =>
    have hpos : 1 ≤ (appTokens hash hdrSupported application).length := Nat.succ_le_succ (Nat.zero_le _)
    rw [List.flatMap_cons, List.append_assoc, List.length_append, List.length_cons]
    omega

theorem readAppList_appList {applications : List ApplicationConfig}
    (htitles : ∀ a ∈ applications, Xml.IsText a.title.toList) :
    readAppList (appList hash hdrSupported applications) = some (applications.map (listing hash hdrSupported)) := by
  rw [readAppList, appList_eq, Xml.parse_render (wellFormed_appListTokens hash hdrSupported htitles)
    (nested_appListTokens hash hdrSupported applications)]
  exact (if_pos ⟨rfl, List.mem_singleton_self _⟩).trans
    (readApps_appTokens hash hdrSupported applications (length_le_tokens hash hdrSupported applications _))

/-- The parameters of a client that asks for an entry. -/
def selecting (entry : Listed) (params : String → Option String) (name : String) : Option String :=
  if name = "appid" then some (String.ofList (decimal entry.id.toInt)) else params name

theorem launch_id {applications : List Int32} {params : String → Option String} {context : Negotiation.SessionContext}
    (h : Negotiation.launch applications params = .ok context) :
    ((params "appid").bind fun v => Negotiation.parseI32 v.toList) = some context.applicationId ∧
      context.applicationId ∈ applications := by
  unfold Negotiation.launch at h
  obtain ⟨applicationId, hid, h⟩ := Outcome.bind_eq_ok.mp h
  obtain ⟨mode, -, h⟩ := Outcome.bind_eq_ok.mp h
  obtain ⟨key, -, h⟩ := Outcome.bind_eq_ok.mp h
  obtain ⟨keyId, -, h⟩ := Outcome.bind_eq_ok.mp h
  rw [Outcome.ofOption_eq_ok] at hid
  split at h
  next hmem =>
    cases h
    exact ⟨hid, hmem⟩
  next =>
    obtain ⟨_, -, h⟩ := Outcome.bind_eq_ok.mp h
    cases h

theorem launch_selecting {applications : List Int32} {params : String → Option String} {entry : Listed}
    {context : Negotiation.SessionContext}
    (h : Negotiation.launch applications (selecting entry params) = .ok context) :
    context.applicationId = entry.id := by
  have hid := (launch_id h).1
  rw [selecting, if_pos rfl, Option.bind_some, String.toList_ofList, parseI32_decimal] at hid
  exact (Option.some.inj hid).symm

/-- The first application with the ID. -/
structure First (applications : List ApplicationConfig) (id : Int32) (application : ApplicationConfig) : Prop where
  found : findApplication hash applications id = some application
  id_eq : application.id hash = id
  before : ∃ before after, applications = before ++ application :: after ∧ ∀ b ∈ before, b.id hash ≠ id

theorem exists_first {applications : List ApplicationConfig} {application : ApplicationConfig}
    (h : application ∈ applications) : ∃ a, First hash applications (application.id hash) a := by
  obtain ⟨a, ha⟩ : ∃ a, findApplication hash applications (application.id hash) = some a :=
    Option.isSome_iff_exists.mp (List.find?_isSome.mpr ⟨application, h, decide_eq_true rfl⟩)
  obtain ⟨hid, before, after, hsplit, hbefore⟩ := List.find?_eq_some_iff_append.mp ha
  refine ⟨a, ha, of_decide_eq_true hid, before, after, hsplit, fun b hb heq => ?_⟩
  have hne := hbefore b hb
  simp [heq] at hne

/-- Every application is the first with its ID, exactly if no two share one. -/
theorem find_self_iff (applications : List ApplicationConfig) :
    (∀ a ∈ applications, findApplication hash applications (a.id hash) = some a) ↔
      ∀ a ∈ applications, ∀ b ∈ applications, a.id hash = b.id hash → a = b := by
  constructor
  · intro h a ha b hb heq
    have hfound := h a ha
    rw [heq, h b hb] at hfound
    exact (Option.some.inj hfound).symm
  · intro h a ha
    obtain ⟨first, hfirst⟩ := exists_first hash ha
    have hmem : first ∈ applications := List.mem_of_find?_eq_some hfirst.found
    rw [h a ha first hmem hfirst.id_eq.symm]
    exact h a ha first hmem hfirst.id_eq.symm ▸ hfirst.found

/-- What a client reads of an error is what the server has put into it. -/
theorem parse_xmlError (statusCode : UInt16) {message : List Char} (hmessage : Xml.IsValue message) :
    Xml.parse (xmlError statusCode message) = some (errorTokens statusCode message) := by
  rw [xmlError_eq]
  exact Xml.parse_render (wellFormed_errorTokens statusCode hmessage)
    (Xml.nested_root fun _ _ _ => rfl)

/-- The documents are read back, if the titles and the message have only characters that
XML reads as they are. If a client launches an entry of the list, the session is that of
the first application with the ID of the entry, and every entry launches its own
application exactly if no two share an ID. -/
theorem documents_read (applications : List ApplicationConfig) :
    ((∀ a ∈ applications, Xml.IsText a.title.toList) →
      readAppList (appList hash hdrSupported applications) = some (applications.map (listing hash hdrSupported))) ∧
      (∀ entry ∈ applications.map (listing hash hdrSupported), ∀ params context,
        Negotiation.launch (applications.map (·.id hash)) (selecting entry params) = .ok context →
          ∃ application, First hash applications entry.id application ∧
            findApplication hash applications context.applicationId = some application) ∧
      ((∀ a ∈ applications, findApplication hash applications (listing hash hdrSupported a).id = some a) ↔
        ∀ a ∈ applications, ∀ b ∈ applications, a.id hash = b.id hash → a = b) ∧
      ∀ statusCode message, Xml.IsValue message →
        Xml.parse (xmlError statusCode message) = some (errorTokens statusCode message) := by
  refine ⟨readAppList_appList hash hdrSupported, fun entry hentry params context h => ?_,
    find_self_iff hash applications, fun statusCode _ => parse_xmlError statusCode⟩
  obtain ⟨application, happlication, rfl⟩ := List.mem_map.mp hentry
  obtain ⟨first, hfirst⟩ := exists_first hash happlication
  exact ⟨first, hfirst, launch_selecting h ▸ hfirst.found⟩

def exampleApplication (title : String) (command : List String) : ApplicationConfig :=
  ⟨title, none, command, [], [], none, none, 2⟩

/-- The lengths of the titles, for their hashes. -/
def exampleHash (title : String) : UInt64 := title.length.toUInt64

def exampleApplications : List ApplicationConfig :=
  [exampleApplication "<A&B>" ["a"], exampleApplication "'C'" ["c"], exampleApplication "<A&B>" ["b"]]

def exampleParams (name : String) : Option String :=
  if name = "mode" then some "1280x720x60" else if name = "rikey" then some "00ff"
  else if name = "rikeyid" then some "5" else none

/-- The list is read, and its last entry launches the first application, which has the
same title; and so is an error. -/
theorem launched_entry :
    readAppList (appList exampleHash false exampleApplications) =
      some [⟨false, "<A&B>".toList, 5⟩, ⟨false, "'C'".toList, 3⟩, ⟨false, "<A&B>".toList, 5⟩] ∧
    (∃ context, Negotiation.launch (exampleApplications.map (·.id exampleHash))
        (selecting ⟨false, "<A&B>".toList, 5⟩ exampleParams) = .ok context ∧
      ∃ application, First exampleHash exampleApplications 5 application ∧
        findApplication exampleHash exampleApplications context.applicationId = some application) ∧
    Xml.parse (xmlError 400 "\"<&>\"".toList) = some (errorTokens 400 "\"<&>\"".toList) := by
  obtain ⟨hread, hlaunched, -, herror⟩ := documents_read exampleHash false exampleApplications
  have hlaunch : Negotiation.launch (exampleApplications.map (·.id exampleHash))
      (selecting ⟨false, "<A&B>".toList, 5⟩ exampleParams) =
        .ok ⟨5, (1280, 720), 60, ⟨[0, 255], 5⟩, .stereo, 3, false⟩ := by decide +kernel
  exact ⟨(hread (by decide +kernel)).trans (by decide +kernel),
    ⟨_, hlaunch, hlaunched ⟨false, "<A&B>".toList, 5⟩ (by decide +kernel) exampleParams _ hlaunch⟩,
    herror 400 _ (by decide +kernel)⟩

end Moonshine.Proof.Documents
