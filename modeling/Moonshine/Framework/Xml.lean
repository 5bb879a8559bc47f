import Mathlib.Data.List.Chain

/-!
# A stream of XML

`Token` is what a reader of an XML stream gets: the start of an element with its
attributes, its end, and text. `render` writes tokens, with the five characters
of the markup escaped in text and in the values of attributes; `parse` reads
them as XML 1.0 has it, without references to other characters: it takes only the
characters of XML, reads every end of a line as a line feed and white space in the
value of an attribute as a blank, and wants elements closed in the order in which
they were opened. What is written is read back (`parse_render`), as long as names
are names, texts and values have nothing that is read otherwise, every text is all
the text between two tags (`WellFormed`), and elements are nested (`Nested`), which
is so of what is put together from elements (`enclosed_element`, `nested_element`).
-/

namespace Moonshine.Framework.Xml

/-! ## Escaping -/

def escapeChar : Char → List Char
  | '&' => ['&', 'a', 'm', 'p', ';']
  | '<' => ['&', 'l', 't', ';']
  | '>' => ['&', 'g', 't', ';']
  | '"' => ['&', 'q', 'u', 'o', 't', ';']
  | '\'' => ['&', 'a', 'p', 'o', 's', ';']
  | c => [c]

def escape (cs : List Char) : List Char := cs.flatMap escapeChar

/-- `none` for an ampersand that begins no reference. -/
def unescape : List Char → Option (List Char)
  | '&' :: 'a' :: 'm' :: 'p' :: ';' :: cs => (unescape cs).map ('&' :: ·)
  | '&' :: 'l' :: 't' :: ';' :: cs => (unescape cs).map ('<' :: ·)
  | '&' :: 'g' :: 't' :: ';' :: cs => (unescape cs).map ('>' :: ·)
  | '&' :: 'q' :: 'u' :: 'o' :: 't' :: ';' :: cs => (unescape cs).map ('"' :: ·)
  | '&' :: 'a' :: 'p' :: 'o' :: 's' :: ';' :: cs => (unescape cs).map ('\'' :: ·)
  | '&' :: _ => none
  | c :: cs => (unescape cs).map (c :: ·)
  | [] => some []

/-- The characters of the markup. -/
def markup : List Char := ['&', '<', '>', '"', '\'']

theorem escapeChar_of_notMem {c : Char} (h : c ∉ markup) : escapeChar c = [c] := by
  simp only [markup, List.mem_cons, List.not_mem_nil, or_false, not_or] at h
  obtain ⟨hamp, hlt, hgt, hquot, hapos⟩ := h
  unfold escapeChar
  split <;> first | contradiction | rfl

theorem unescape_cons_of_ne {c : Char} (h : c ≠ '&') (cs : List Char) :
    unescape (c :: cs) = (unescape cs).map (c :: ·) := by
  rw [unescape.eq_def]
  split <;> simp_all

theorem unescape_escapeChar (c : Char) (cs : List Char) :
    unescape (escapeChar c ++ cs) = (unescape cs).map (c :: ·) := by
  by_cases h : c ∈ markup
  · simp only [markup, List.mem_cons, List.not_mem_nil, or_false] at h
    rcases h with rfl | rfl | rfl | rfl | rfl <;> rfl
  · rw [escapeChar_of_notMem h]
    exact unescape_cons_of_ne (fun hc => h (by simp [hc, markup])) cs

theorem unescape_escape (cs : List Char) : unescape (escape cs) = some cs := by
  induction cs with
  | nil => rfl
  | cons c cs ih => rw [escape, List.flatMap_cons, unescape_escapeChar, ← escape, ih, Option.map_some]

/-- The characters of the references. -/
def referenceChars : List Char := ['&', ';', 'a', 'm', 'p', 'l', 't', 'g', 'q', 'u', 'o', 's']

/-- An escape adds only the characters of references. -/
theorem mem_escape {c : Char} {cs : List Char} (h : c ∈ escape cs) : c ∈ cs ∨ c ∈ referenceChars := by
  obtain ⟨d, hd, hc⟩ := List.mem_flatMap.mp h
  by_cases hm : d ∈ markup
  · have hall : ∀ d ∈ markup, escapeChar d ⊆ referenceChars := by
      simp [markup, escapeChar, referenceChars]
    exact .inr (hall d hm hc)
  · rw [escapeChar_of_notMem hm, List.mem_singleton] at hc
    exact .inl (hc ▸ hd)

/-- Of the characters of the markup, only an ampersand is left. -/
theorem notMem_escape {c : Char} (h : c ∈ ['<', '>', '"', '\'']) (cs : List Char) : c ∉ escape cs := by
  intro hmem
  obtain ⟨d, -, hd⟩ := List.mem_flatMap.mp hmem
  by_cases hm : d ∈ markup
  · simp only [markup, List.mem_cons, List.not_mem_nil, or_false] at hm h
    rcases hm with rfl | rfl | rfl | rfl | rfl <;> rcases h with rfl | rfl | rfl | rfl <;>
      simp [escapeChar] at hd
  · rw [escapeChar_of_notMem hm, List.mem_singleton] at hd
    rw [← hd] at hm
    simp only [List.mem_cons, List.not_mem_nil, or_false] at h
    rcases h with rfl | rfl | rfl | rfl <;> exact hm (by simp [markup])

theorem escape_eq_nil {cs : List Char} : escape cs = [] ↔ cs = [] := by
  cases cs with
  | nil => exact Iff.rfl
  | cons c cs =>
    refine iff_of_false (fun h => ?_) (by simp)
    have hback := unescape_escape (c :: cs)
    rw [h] at hback
    cases hback

/-! ## Characters -/

/-- The characters of XML; a `Char` is no surrogate. -/
def isXmlChar (c : Char) : Bool :=
  c = '\t' || c = '\n' || c = '\r' || (' ' ≤ c && c.toNat ≠ 0xFFFE && c.toNat ≠ 0xFFFF)

/-- Every end of a line is read as a line feed. -/
def normalizeLines : List Char → List Char
  | '\r' :: '\n' :: cs => '\n' :: normalizeLines cs
  | '\r' :: cs => '\n' :: normalizeLines cs
  | c :: cs => c :: normalizeLines cs
  | [] => []

/-- The white space of an attribute's value is read as blanks. -/
def normalizeValue (cs : List Char) : List Char := cs.map fun c => if c = '\t' ∨ c = '\n' then ' ' else c

theorem normalizeLines_of_notMem {cs : List Char} (h : '\r' ∉ cs) : normalizeLines cs = cs := by
  induction cs with
  | nil => rfl
  | cons c cs ih =>
    rw [List.mem_cons, not_or] at h
    rw [normalizeLines.eq_def]
    split <;> simp_all

/-- A text that is read as it is. -/
def IsText (cs : List Char) : Prop := ∀ c ∈ cs, isXmlChar c ∧ c ≠ '\r'

/-- A value of an attribute that is read as it is. -/
def IsValue (cs : List Char) : Prop := ∀ c ∈ cs, isXmlChar c ∧ c ∉ ['\t', '\n', '\r']

instance (cs : List Char) : Decidable (IsText cs) := List.decidableBAll _ cs

instance (cs : List Char) : Decidable (IsValue cs) := List.decidableBAll _ cs

theorem IsValue.isText {cs : List Char} (h : IsValue cs) : IsText cs :=
  fun c hc => ⟨(h c hc).1, fun heq => (h c hc).2 (by simp [heq])⟩

theorem IsText.append {cs cs' : List Char} (h : IsText cs) (h' : IsText cs') : IsText (cs ++ cs') :=
  fun c hc => (List.mem_append.mp hc).elim (h c) (h' c)

theorem IsText.escape {cs : List Char} (h : IsText cs) : IsText (escape cs) := fun c hc =>
  (mem_escape hc).elim (h c) ((by decide +kernel : IsText referenceChars) c)

theorem normalizeValue_escape {cs : List Char} (h : IsValue cs) : normalizeValue (escape cs) = escape cs := by
  refine (List.map_congr_left fun c hc => if_neg fun hwhite => ?_).trans (List.map_id _)
  rcases mem_escape hc with hc | hc
  · exact (h c hc).2 (by rcases hwhite with rfl | rfl <;> decide)
  · rcases hwhite with rfl | rfl <;> revert hc <;> decide

/-! ## Tokens -/

inductive Token
  | start (name : List Char) (attributes : List (List Char × List Char))
  | stop (name : List Char)
  | text (content : List Char)
  deriving DecidableEq, Repr

def renderAttribute (a : List Char × List Char) : List Char :=
  ' ' :: a.1 ++ '=' :: '"' :: escape a.2 ++ ['"']

def Token.render : Token → List Char
  | start name attributes => '<' :: name ++ attributes.flatMap renderAttribute ++ ['>']
  | stop name => '<' :: '/' :: name ++ ['>']
  | text content => escape content

def render (tokens : List Token) : List Char := tokens.flatMap Token.render

/-- What is before the first `c`, and after it. -/
def untilChar (c : Char) : List Char → Option (List Char × List Char)
  | [] => none
  | d :: cs => if d = c then some ([], cs) else (untilChar c cs).map fun p => (d :: p.1, p.2)

/-- The attributes of a tag, in at most `fuel` steps. -/
def attributesFrom : (fuel : Nat) → List Char → Option (List (List Char × List Char))
  | _, [] => some []
  | fuel + 1, ' ' :: cs =>
    match untilChar '=' cs with
    | some (name, '"' :: cs) => (untilChar '"' cs).bind fun p =>
      (unescape (normalizeValue p.1)).bind fun value => (attributesFrom fuel p.2).map ((name, value) :: ·)
    | _ => none
  | _, _ => none

/-- What is between `<` and `>`. -/
def tag (cs : List Char) : Option Token :=
  match cs with
  | '/' :: name => some (.stop name)
  | cs =>
    let name := cs.takeWhile (· ≠ ' ')
    (attributesFrom cs.length (cs.dropWhile (· ≠ ' '))).map (.start name)

/-- The first token, and what is after it. -/
def token : List Char → Option (Token × List Char)
  | '<' :: cs => (untilChar '>' cs).bind fun p => (tag p.1).map fun t => (t, p.2)
  | cs => (unescape (cs.takeWhile (· ≠ '<'))).map fun content => (.text content, cs.dropWhile (· ≠ '<'))

def parseFrom : (fuel : Nat) → List Char → Option (List Token)
  | _, [] => some []
  | 0, _ => none
  | fuel + 1, cs => (token cs).bind fun p => (parseFrom fuel p.2).map (p.1 :: ·)

/-- Whether elements are closed as they were opened, and text is in one. -/
def nested : List (List Char) → List Token → Bool
  | [], [] => true
  | opened, .start name _ :: tokens => nested (name :: opened) tokens
  | name :: opened, .stop name' :: tokens => name = name' && nested opened tokens
  | name :: opened, .text _ :: tokens => nested (name :: opened) tokens
  | _, _ => false

def parse (cs : List Char) : Option (List Token) :=
  if cs.all isXmlChar then
    (parseFrom (normalizeLines cs).length (normalizeLines cs)).filter (nested [])
  else none

/-! ## What is well formed -/

/-- A name has none of the characters that end one. -/
def IsName (name : List Char) : Prop :=
  ∀ c ∈ name, isXmlChar c ∧ c ∉ ['<', '>', '"', '/', '=', ' ', '\t', '\n', '\r']

instance (name : List Char) : Decidable (IsName name) := List.decidableBAll _ name

def Token.Valid : Token → Prop
  | start name attributes => IsName name ∧ ∀ a ∈ attributes, IsName a.1 ∧ IsValue a.2
  | stop name => IsName name
  | text content => content ≠ [] ∧ IsText content

def Token.isText : Token → Bool
  | text _ => true
  | start .. | stop _ => false

/-- Tokens that can be told apart: no text is empty or next to another. -/
structure WellFormed (tokens : List Token) : Prop where
  valid : ∀ t ∈ tokens, t.Valid
  separated : tokens.IsChain fun t u => ¬ (t.isText ∧ u.isText)

/-! ## What is written is read back -/

theorem untilChar_append {c : Char} {cs : List Char} (h : c ∉ cs) (rest : List Char) :
    untilChar c (cs ++ c :: rest) = some (cs, rest) := by
  induction cs with
  | nil => simp [untilChar]
  | cons d cs ih =>
    rw [List.mem_cons, not_or] at h
    rw [List.cons_append, untilChar, if_neg (Ne.symm h.1), ih h.2]
    rfl

theorem notMem_of_isName {name : List Char} (h : IsName name) {c : Char}
    (hc : c ∈ ['<', '>', '"', '/', '=', ' ', '\t', '\n', '\r']) : c ∉ name := fun hmem => (h c hmem).2 hc

theorem attributesFrom_render {attributes : List (List Char × List Char)}
    (h : ∀ a ∈ attributes, IsName a.1 ∧ IsValue a.2) {fuel : Nat} (hfuel : attributes.length ≤ fuel) :
    attributesFrom fuel (attributes.flatMap renderAttribute) = some attributes := by
  induction attributes generalizing fuel with
  | nil => cases fuel <;> rfl
  | cons a attributes ih =>
    obtain _ | fuel := fuel
    · cases hfuel
    have hname : '=' ∉ a.1 := notMem_of_isName (h a List.mem_cons_self).1 (by decide)
    have hvalue : '"' ∉ escape a.2 := notMem_escape (by decide) a.2
    have hsplit : (a :: attributes).flatMap renderAttribute =
        ' ' :: (a.1 ++ '=' :: ('"' :: (escape a.2 ++ '"' :: attributes.flatMap renderAttribute))) := by
      simp [renderAttribute]
    rw [hsplit, attributesFrom, untilChar_append hname]
    simp only
    rw [untilChar_append hvalue, Option.bind_some, normalizeValue_escape (h a List.mem_cons_self).2,
      unescape_escape, Option.bind_some,
      ih (fun b hb => h b (List.mem_cons_of_mem a hb)) (Nat.le_of_succ_le_succ hfuel)]
    rfl

theorem notMem_renderAttributes {attributes : List (List Char × List Char)} (h : ∀ a ∈ attributes, IsName a.1) :
    '>' ∉ attributes.flatMap renderAttribute := by
  intro hmem
  obtain ⟨a, ha, hc⟩ := List.mem_flatMap.mp hmem
  have hname : '>' ∉ a.1 := notMem_of_isName (h a ha) (by decide)
  have hvalue : '>' ∉ escape a.2 := notMem_escape (by decide) a.2
  simp [renderAttribute, hname, hvalue] at hc

theorem length_le_renderAttributes (attributes : List (List Char × List Char)) :
    attributes.length ≤ (attributes.flatMap renderAttribute).length := by
  induction attributes with
  | nil => exact Nat.le_refl _
  | cons a attributes ih =>
    rw [List.flatMap_cons, List.length_append, renderAttribute, List.length_cons]
    simp only [List.cons_append, List.length_cons]
    omega

/-- The attributes begin with a blank, if there are any. -/
theorem takeWhile_name {name : List Char} (h : IsName name) (attributes : List (List Char × List Char)) :
    (name ++ attributes.flatMap renderAttribute).takeWhile (· ≠ ' ') = name ∧
      (name ++ attributes.flatMap renderAttribute).dropWhile (· ≠ ' ') = attributes.flatMap renderAttribute := by
  have hall : ∀ c ∈ name, decide (c ≠ ' ') = true := fun c hc =>
    decide_eq_true fun heq => (h c hc).2 (by simp [heq])
  rw [List.takeWhile_append_of_pos hall, List.dropWhile_append_of_pos hall]
  cases attributes with
  | nil => simp
  | cons a attributes => simp [renderAttribute]

theorem tag_start {name : List Char} {attributes : List (List Char × List Char)} (hname : IsName name)
    (hattributes : ∀ a ∈ attributes, IsName a.1 ∧ IsValue a.2) :
    tag (name ++ attributes.flatMap renderAttribute) = some (.start name attributes) := by
  have hslash : '/' ∉ name := notMem_of_isName hname (by decide)
  have hlen : attributes.length ≤ (name ++ attributes.flatMap renderAttribute).length := by
    rw [List.length_append]
    exact Nat.le_add_left_of_le (length_le_renderAttributes attributes)
  obtain ⟨htake, hdrop⟩ := takeWhile_name hname attributes
  rw [tag.eq_def]
  split
  next name' heq =>
    cases name with
    | nil =>
      cases attributes with
      | nil => cases heq
      | cons a attributes => simp [renderAttribute] at heq
    | cons c name =>
      rw [List.cons_append, List.cons.injEq] at heq
      exact absurd (heq.1 ▸ List.mem_cons_self) hslash
  next =>
    simp only
    rw [htake, hdrop, attributesFrom_render hattributes hlen]
    rfl

theorem token_start {name : List Char} {attributes : List (List Char × List Char)} (hname : IsName name)
    (hattributes : ∀ a ∈ attributes, IsName a.1 ∧ IsValue a.2) (rest : List Char) :
    token ((Token.start name attributes).render ++ rest) = some (.start name attributes, rest) := by
  have hgt : '>' ∉ name ++ attributes.flatMap renderAttribute := fun hmem =>
    (List.mem_append.mp hmem).elim (notMem_of_isName hname (by decide)) (notMem_renderAttributes fun a ha => (hattributes a ha).1)
  have hsplit : (Token.start name attributes).render ++ rest =
      '<' :: ((name ++ attributes.flatMap renderAttribute) ++ '>' :: rest) := by
    simp [Token.render]
  rw [hsplit, token, untilChar_append hgt, Option.bind_some, tag_start hname hattributes]
  rfl

theorem token_stop {name : List Char} (hname : IsName name) (rest : List Char) :
    token ((Token.stop name).render ++ rest) = some (.stop name, rest) := by
  have hgt : '>' ∉ '/' :: name := by
    rw [List.mem_cons, not_or]
    exact ⟨by decide, notMem_of_isName hname (by decide)⟩
  have hsplit : (Token.stop name).render ++ rest = '<' :: (('/' :: name) ++ '>' :: rest) := by
    simp [Token.render]
  rw [hsplit, token, untilChar_append hgt]
  rfl

/-- A text ends at the next tag, or with the stream. -/
theorem token_text {content rest : List Char} (hne : content ≠ []) (hrest : rest = [] ∨ rest.head? = some '<') :
    token ((Token.text content).render ++ rest) = some (.text content, rest) := by
  have hlt : '<' ∉ escape content := notMem_escape (by decide) content
  have hall : ∀ c ∈ escape content, decide (c ≠ '<') = true := fun c hc =>
    decide_eq_true fun heq => hlt (heq ▸ hc)
  have htake : (escape content ++ rest).takeWhile (· ≠ '<') = escape content := by
    rw [List.takeWhile_append_of_pos hall]
    cases rest with
    | nil => simp
    | cons c rest =>
      obtain rfl : c = '<' := by simpa using hrest
      simp
  have hdrop : (escape content ++ rest).dropWhile (· ≠ '<') = rest := by
    rw [List.dropWhile_append_of_pos hall]
    cases rest with
    | nil => simp
    | cons c rest =>
      obtain rfl : c = '<' := by simpa using hrest
      simp
  rw [token.eq_def]
  split
  next cs heq =>
    cases hcontent : escape content with
    | nil => exact absurd (escape_eq_nil.mp hcontent) hne
    | cons c cs' =>
      rw [Token.render, hcontent, List.cons_append, List.cons.injEq] at heq
      rw [hcontent, heq.1] at hlt
      exact absurd List.mem_cons_self hlt
  next =>
    rw [Token.render, htake, hdrop, unescape_escape, Option.map_some]

/-- Only a text does not begin with a tag. -/
theorem render_head {tokens : List Token} (h : ∀ t ∈ tokens.head?, ¬ t.isText) :
    render tokens = [] ∨ (render tokens).head? = some '<' := by
  cases tokens with
  | nil => exact .inl rfl
  | cons t tokens =>
    cases t with
    | start name attributes => exact .inr rfl
    | stop name => exact .inr rfl
    | text content => exact absurd rfl (h _ rfl)

theorem render_ne_nil {t : Token} (h : t.Valid) : t.render ≠ [] := by
  cases t with
  | start name attributes => simp [Token.render]
  | stop name => simp [Token.render]
  | text content => exact fun heq => h.1 (escape_eq_nil.mp heq)

theorem token_render {t : Token} {tokens : List Token} (h : WellFormed (t :: tokens)) :
    token (t.render ++ render tokens) = some (t, render tokens) := by
  have hvalid := h.valid t List.mem_cons_self
  cases t with
  | start name attributes => exact token_start hvalid.1 hvalid.2 _
  | stop name => exact token_stop hvalid _
  | text content =>
    refine token_text hvalid.1 (render_head fun u hu htext => ?_)
    have hchain := h.separated
    rw [List.isChain_cons] at hchain
    exact hchain.1 u hu ⟨rfl, htext⟩

theorem parseFrom_succ (fuel : Nat) {cs : List Char} (h : cs ≠ []) :
    parseFrom (fuel + 1) cs = (token cs).bind fun p => (parseFrom fuel p.2).map (p.1 :: ·) := by
  cases cs with
  | nil => exact absurd rfl h
  | cons c cs => rfl

theorem parseFrom_render {tokens : List Token} (h : WellFormed tokens) {fuel : Nat}
    (hfuel : (render tokens).length ≤ fuel) : parseFrom fuel (render tokens) = some tokens := by
  induction tokens generalizing fuel with
  | nil => cases fuel <;> rfl
  | cons t tokens ih =>
    have htail : WellFormed tokens :=
      ⟨fun u hu => h.valid u (List.mem_cons_of_mem t hu), h.separated.tail⟩
    have hpos : 0 < t.render.length := List.length_pos_iff.mpr (render_ne_nil (h.valid t List.mem_cons_self))
    have hrender : render (t :: tokens) = t.render ++ render tokens := rfl
    rw [hrender, List.length_append] at hfuel
    obtain _ | fuel := fuel
    · omega
    have hne : t.render ++ render tokens ≠ [] := by
      rw [← List.length_pos_iff, List.length_append]
      omega
    rw [hrender, parseFrom_succ fuel hne, token_render h, Option.bind_some, ih htail (by omega)]
    rfl

theorem IsName.isText {name : List Char} (h : IsName name) : IsText name :=
  fun c hc => ⟨(h c hc).1, fun heq => (h c hc).2 (by simp [heq])⟩

theorem isText_renderAttribute {a : List Char × List Char} (hname : IsName a.1) (hvalue : IsValue a.2) :
    IsText (renderAttribute a) := by
  have hopen : IsText ['=', '"'] := by decide
  have hclose : IsText ['"'] := by decide
  have hsplit : renderAttribute a = [' '] ++ (a.1 ++ (['=', '"'] ++ (escape a.2 ++ ['"']))) := by
    simp [renderAttribute]
  rw [hsplit]
  exact (by decide : IsText [' ']).append
    (hname.isText.append (hopen.append (hvalue.isText.escape.append hclose)))

theorem Token.Valid.isText_render {t : Token} (h : t.Valid) : IsText t.render := by
  have hend : IsText ['>'] := by decide
  cases t with
  | start name attributes =>
    have hattributes : IsText (attributes.flatMap renderAttribute) := fun c hc => by
      obtain ⟨a, ha, hc⟩ := List.mem_flatMap.mp hc
      exact isText_renderAttribute (h.2 a ha).1 (h.2 a ha).2 c hc
    exact (((by decide : IsText ['<']).append h.1.isText).append hattributes).append hend
  | stop name => exact ((by decide : IsText ['<', '/']).append (IsName.isText h)).append hend
  | text content => exact h.2.escape

theorem isText_render {tokens : List Token} (h : ∀ t ∈ tokens, t.Valid) : IsText (render tokens) := fun c hc => by
  obtain ⟨t, ht, hc⟩ := List.mem_flatMap.mp hc
  exact (h t ht).isText_render c hc

theorem parse_render {tokens : List Token} (h : WellFormed tokens) (hnested : nested [] tokens) :
    parse (render tokens) = some tokens := by
  have htext := isText_render h.valid
  have hall : (render tokens).all isXmlChar = true := List.all_eq_true.mpr fun c hc => (htext c hc).1
  have hlines : normalizeLines (render tokens) = render tokens :=
    normalizeLines_of_notMem fun hr => (htext _ hr).2 rfl
  rw [parse, if_pos hall, hlines, parseFrom_render h (Nat.le_refl _), Option.filter_some, hnested]
  rfl

/-! ## Elements -/

/-- An element without a text or with one. -/
def textOf (content : List Char) : List Token := if content = [] then [] else [.text content]

def element (name : List Char) (attributes : List (List Char × List Char)) (children : List Token) : List Token :=
  .start name attributes :: (children ++ [.stop name])

/-- Tokens with a tag at either end, if there are any. -/
structure Enclosed (tokens : List Token) : Prop where
  wellFormed : WellFormed tokens
  head : ∀ t ∈ tokens.head?, ¬ t.isText
  last : ∀ t ∈ tokens.getLast?, ¬ t.isText

theorem wellFormed_textOf {content : List Char} (hcontent : IsText content) : WellFormed (textOf content) := by
  unfold textOf
  split
  · exact ⟨nofun, .nil⟩
  next h => exact ⟨fun t ht => by rw [List.mem_singleton.mp ht]; exact ⟨h, hcontent⟩, .singleton _⟩

theorem enclosed_nil : Enclosed [] := ⟨⟨nofun, .nil⟩, nofun, nofun⟩

theorem enclosed_element {name : List Char} {attributes : List (List Char × List Char)} {children : List Token}
    (hname : IsName name) (hattributes : ∀ a ∈ attributes, IsName a.1 ∧ IsValue a.2)
    (h : WellFormed children) : Enclosed (element name attributes children) := by
  refine ⟨⟨fun t ht => ?_, ?_⟩, fun t ht => ?_, fun t ht => ?_⟩
  · rcases List.mem_cons.mp ht with rfl | ht
    · exact ⟨hname, hattributes⟩
    · rcases List.mem_append.mp ht with ht | ht
      · exact h.valid t ht
      · rw [List.mem_singleton.mp ht]
        exact hname
  · refine List.isChain_cons.mpr ⟨fun u _ htext => by simp [Token.isText] at htext, ?_⟩
    refine List.isChain_append.mpr ⟨h.separated, .singleton _, fun t _ u hu => ?_⟩
    rw [List.head?_cons, Option.mem_some_iff] at hu
    rw [← hu]
    simp [Token.isText]
  · rw [element, List.head?_cons, Option.mem_some_iff] at ht
    rw [← ht]
    simp [Token.isText]
  · rw [element, ← List.cons_append, List.getLast?_append, List.getLast?_singleton, Option.some_or,
      Option.mem_some_iff] at ht
    rw [← ht]
    simp [Token.isText]

theorem Enclosed.append {tokens more : List Token} (h : Enclosed tokens) (hmore : Enclosed more) :
    Enclosed (tokens ++ more) := by
  refine ⟨⟨fun t ht => ?_, ?_⟩, fun t ht => ?_, fun t ht => ?_⟩
  · exact (List.mem_append.mp ht).elim (h.wellFormed.valid t) (hmore.wellFormed.valid t)
  · refine List.isChain_append.mpr ⟨h.wellFormed.separated, hmore.wellFormed.separated, fun t ht u _ htext => ?_⟩
    exact h.last t ht htext.1
  · rw [List.head?_append, Option.mem_def, Option.or_eq_some_iff] at ht
    exact ht.elim (h.head t) fun ht => hmore.head t ht.2
  · rw [List.getLast?_append, Option.mem_def, Option.or_eq_some_iff] at ht
    exact ht.elim (hmore.last t) fun ht => h.last t ht.2

theorem enclosed_flatMap {α : Type} {f : α → List Token} {l : List α} (h : ∀ a ∈ l, Enclosed (f a)) :
    Enclosed (l.flatMap f) := by
  induction l with
  | nil => exact enclosed_nil
  | cons a l ih => exact (h a List.mem_cons_self).append (ih fun b hb => h b (List.mem_cons_of_mem a hb))

/-- Within an element, the tokens close what they open. -/
def Nested (tokens : List Token) : Prop :=
  ∀ name opened rest, nested (name :: opened) (tokens ++ rest) = nested (name :: opened) rest

theorem nested_textOf (content : List Char) : Nested (textOf content) := by
  intro name opened rest
  unfold textOf
  split <;> rfl

theorem Nested.append {tokens more : List Token} (h : Nested tokens) (hmore : Nested more) :
    Nested (tokens ++ more) := fun name opened rest => by
  rw [List.append_assoc, h, hmore]

theorem nested_flatMap {α : Type} {f : α → List Token} (h : ∀ a, Nested (f a)) (l : List α) :
    Nested (l.flatMap f) := by
  induction l with
  | nil => exact fun _ _ _ => rfl
  | cons a l ih => exact (h a).append ih

theorem nested_element (name : List Char) (attributes : List (List Char × List Char)) {children : List Token}
    (h : Nested children) (opened : List (List Char)) (rest : List Token) :
    nested opened (element name attributes children ++ rest) = nested opened rest := by
  have hsplit : element name attributes children ++ rest =
      .start name attributes :: (children ++ (.stop name :: rest)) := by
    simp [element]
  have hclosed : nested (name :: opened) (.stop name :: rest) = nested opened rest := by
    rw [nested, decide_eq_true rfl, Bool.true_and]
  have hopened : nested opened (.start name attributes :: (children ++ (.stop name :: rest))) =
      nested (name :: opened) (children ++ (.stop name :: rest)) := by
    cases opened <;> rfl
  rw [hsplit, hopened, h, hclosed]

theorem Nested.element {name : List Char} {attributes : List (List Char × List Char)} {children : List Token}
    (h : Nested children) : Nested (element name attributes children) :=
  fun name' opened rest => nested_element name attributes h (name' :: opened) rest

theorem nested_root {name : List Char} {attributes : List (List Char × List Char)} {children : List Token}
    (h : Nested children) : nested [] (element name attributes children) := by
  have hrest := nested_element name attributes h [] []
  rw [List.append_nil] at hrest
  rw [hrest]
  rfl

theorem render_append (tokens more : List Token) : render (tokens ++ more) = render tokens ++ render more :=
  List.flatMap_append

theorem render_flatMap {α : Type} (f : α → List Token) (l : List α) :
    render (l.flatMap f) = l.flatMap fun a => render (f a) := List.flatMap_assoc

theorem render_textOf (content : List Char) : render (textOf content) = escape content := by
  unfold textOf
  split
  next h => rw [h]; rfl
  next h => exact List.append_nil _

theorem render_element (name : List Char) (attributes : List (List Char × List Char)) (children : List Token) :
    render (element name attributes children) =
      (Token.start name attributes).render ++ render children ++ (Token.stop name).render := by
  simp [element, render]

end Moonshine.Framework.Xml
