import Mathlib.Data.List.Basic
import Moonshine.Framework.Integers
import Moonshine.Impl.Session.Rtsp

/-!
# Requests in chunks

A request that arrives in any chunks is the request that arrives in one, exactly if
each chunk is text: where a character is split over two of them, the first is
refused (`segmented_iff`). The parser is assumed to call every proper prefix of the
request incomplete.
-/

namespace Moonshine.Proof.Segmentation

open Moonshine.Framework Moonshine.Impl.Rtsp

variable {Message : Type} {parse : String → Parsed Message} {text : String} {message : Message}

/-- The parser, as the loop calls it, takes the text for the message, and any proper prefix
of the text for incomplete. -/
structure IsRequest (parse : String → Parsed Message) (text : String) (message : Message) : Prop where
  nonempty : text ≠ ""
  complete : parse (workaround text) = .ok message
  incomplete : ∀ p q : String, p ++ q = text → q ≠ "" → parse (workaround p) = .incomplete

/-- The bytes of the chunks, one after the other. -/
def joined (chunks : List ByteArray) : ByteArray := chunks.foldr (· ++ ·) .empty

/-- The bytes of the text in chunks, none of them empty. -/
structure Segments (text : String) (chunks : List ByteArray) : Prop where
  bytes : joined chunks = text.toByteArray
  nonempty : ∀ chunk ∈ chunks, chunk.size ≠ 0

theorem joined_ne_empty {chunks : List ByteArray} (hsize : ∀ chunk ∈ chunks, chunk.size ≠ 0)
    (hrest : chunks ≠ []) : (joined chunks).size ≠ 0 := by
  cases chunks with
  | nil => exact absurd rfl hrest
  | cons chunk chunks =>
    have hchunk := hsize chunk List.mem_cons_self
    show (chunk ++ joined chunks).size ≠ 0
    rw [ByteArray.size_append]
    omega

/-- What follows text in text is text. -/
theorem isValidUTF8_of_append {b : ByteArray} (s : String) (h : (s.toByteArray ++ b).IsValidUTF8) :
    b.IsValidUTF8 := by
  obtain ⟨cs, hcs⟩ := s.isValidUTF8
  rw [hcs] at h
  clear hcs
  induction cs with
  | nil => simpa using h
  | cons c cs ih =>
    rw [← List.singleton_append, List.utf8Encode_append, ByteArray.append_assoc] at h
    exact ih (ByteArray.isValidUTF8_utf8Encode_singleton_append_iff.mp h)

theorem fromUTF8?_of_valid {b : ByteArray} (h : b.IsValidUTF8) :
    ∃ s, String.fromUTF8? b = some s ∧ s.toByteArray = b :=
  ⟨String.fromUTF8 b h, dif_pos h, rfl⟩

theorem fromUTF8?_of_not_valid {b : ByteArray} (h : ¬b.IsValidUTF8) : String.fromUTF8? b = none := dif_neg h

/-- From the text so far, over the chunks of the rest. -/
theorem receive_iff (hrequest : IsRequest parse text message) {messageBuffer : String} {chunks : List ByteArray}
    (hbytes : messageBuffer.toByteArray ++ joined chunks = text.toByteArray)
    (hsize : ∀ chunk ∈ chunks, chunk.size ≠ 0) (hrest : chunks ≠ []) :
    receive parse messageBuffer (chunks.map .bytes) = .message message ↔
      ∀ chunk ∈ chunks, chunk.IsValidUTF8 := by
  induction chunks generalizing messageBuffer with
  | nil => exact absurd rfl hrest
  | cons chunk chunks ih =>
    obtain ⟨hchunk, hsizes⟩ := List.forall_mem_cons.mp hsize
    rw [List.map_cons, receive, if_neg hchunk, List.forall_mem_cons]
    by_cases hvalid : chunk.IsValidUTF8
    · obtain ⟨s, hs, hschunk⟩ := fromUTF8?_of_valid hvalid
      rw [hs, and_iff_right hvalid]
      have hbytes' : (messageBuffer ++ s).toByteArray ++ joined chunks = text.toByteArray := by
        rw [String.toByteArray_append, hschunk, ByteArray.append_assoc]
        exact hbytes
      by_cases hlast : chunks = []
      · subst hlast
        have htext : messageBuffer ++ s = text := by
          rw [← String.toByteArray_inj, ← hbytes']
          exact (ByteArray.append_empty).symm
        simp only [htext, hrequest.complete]
        simp
      · -- what is left is text, so that the parser waits for it
        have htail := isValidUTF8_of_append (messageBuffer ++ s) (hbytes' ▸ text.isValidUTF8)
        have hincomplete : parse (workaround (messageBuffer ++ s)) = .incomplete := by
          refine hrequest.incomplete _ (String.fromUTF8 (joined chunks) htail) ?_ ?_
          · rw [← String.toByteArray_inj, String.toByteArray_append]
            exact hbytes'
          · intro hq
            have hempty : (String.fromUTF8 (joined chunks) htail).toByteArray = "".toByteArray := by rw [hq]
            exact joined_ne_empty hsizes hlast (congrArg ByteArray.size hempty)
        simp only [hincomplete]
        exact ih hbytes' hsizes hlast
    · rw [fromUTF8?_of_not_valid hvalid]
      simp [hvalid]

theorem IsRequest.size_ne_zero (hrequest : IsRequest parse text message) : text.toByteArray.size ≠ 0 := by
  intro h
  refine hrequest.nonempty (String.toByteArray_inj.mp ?_)
  rw [ByteArray.size_eq_zero_iff.mp h]
  rfl

theorem handleConnection_whole (hrequest : IsRequest parse text message) :
    handleConnection parse true [.bytes text.toByteArray] = .message message := by
  have hbytes : "".toByteArray ++ joined [text.toByteArray] = text.toByteArray := by simp [joined]
  refine (receive_iff hrequest hbytes ?_ (by simp)).mpr ?_
  · simpa using hrequest.size_ne_zero
  · simpa using text.isValidUTF8

theorem handleConnection_iff (hrequest : IsRequest parse text message) {chunks : List ByteArray}
    (hsegments : Segments text chunks) :
    handleConnection parse true (chunks.map .bytes) = .message message ↔ ∀ chunk ∈ chunks, chunk.IsValidUTF8 := by
  refine receive_iff hrequest ?_ hsegments.nonempty ?_
  · rw [hsegments.bytes]
    simp
  · rintro rfl
    exact hrequest.size_ne_zero (congrArg ByteArray.size hsegments.bytes.symm)

/-- The request in chunks, and in one: the two are the same exactly if every chunk is
text, with no character split over two of them. -/
theorem segmented_iff (hrequest : IsRequest parse text message) {chunks : List ByteArray}
    (hsegments : Segments text chunks) :
    handleConnection parse true [.bytes text.toByteArray] = .message message ∧
      (handleConnection parse true (chunks.map .bytes) = handleConnection parse true [.bytes text.toByteArray] ↔
        ∀ chunk ∈ chunks, chunk.IsValidUTF8) := by
  have hwhole := handleConnection_whole hrequest
  refine ⟨hwhole, ?_⟩
  rw [hwhole]
  exact handleConnection_iff hrequest hsegments

/-- The head of a message, up to the empty line, and what follows it. -/
def splitHead : List Char → Option (List Char × List Char)
  | [] => none
  | c :: cs =>
    if "\r\n\r\n".toList.isPrefixOf (c :: cs) then some ([], cs.drop 3)
    else (splitHead cs).map fun (head, body) => (c :: head, body)

def contentLength : List Char → Nat
  | [] => 0
  | c :: cs =>
    if "Content-Length: ".toList.isPrefixOf (c :: cs) then
      (parseDigits ((cs.drop 15).takeWhile Char.isDigit)).getD 0
    else contentLength cs

/-- A parser that waits for the empty line and for as many bytes as the head says. -/
def exampleParse (s : String) : Parsed (List Char × List Char) :=
  match splitHead s.toList with
  | none => .incomplete
  | some (head, body) =>
    if (String.ofList body).utf8ByteSize < contentLength head then .incomplete else .ok (head, body)

def exampleHead : String := "PLAY / RTSP/1.0\r\nCSeq: 7\r\nContent-Length: 2\r\n\r\n"

def exampleMessage : List Char × List Char :=
  ("PLAY rtsp://localhost/ RTSP/1.0\r\nCSeq: 7\r\nContent-Length: 2".toList, ['é'])

theorem toList_workaround (s : String) : (workaround s).toList =
    replace (replace s.toList "streamid" "rtsp://localhost?streamid") "PLAY /" "PLAY rtsp://localhost/" := by
  simp [workaround]

theorem exampleParse_of_split {s : String} {head body : List Char} (hsplit : splitHead s.toList = some (head, body))
    (hlength : ¬(String.ofList body).utf8ByteSize < contentLength head) : exampleParse s = .ok (head, body) := by
  rw [exampleParse, hsplit]
  exact if_neg hlength

theorem exampleRequest : IsRequest exampleParse (exampleHead ++ "é") exampleMessage where
  nonempty := by decide
  complete := by
    have hsplit : splitHead (replace (replace (exampleHead ++ "é").toList "streamid" "rtsp://localhost?streamid")
        "PLAY /" "PLAY rtsp://localhost/") = some (exampleMessage.1, exampleMessage.2) := by decide +kernel
    have hlength : ¬(String.ofList exampleMessage.2).utf8ByteSize < contentLength exampleMessage.1 := by decide +kernel
    exact exampleParse_of_split ((congrArg splitHead (toList_workaround _)).trans hsplit) hlength
  incomplete p q htext hq := by
    -- a list of characters is quicker to evaluate than a string
    have hprefixes : ∀ n < 47, splitHead (replace (replace ((exampleHead ++ "é").toList.take n)
        "streamid" "rtsp://localhost?streamid") "PLAY /" "PLAY rtsp://localhost/") = none := by decide +kernel
    have hlist : p.toList ++ q.toList = (exampleHead ++ "é").toList := by rw [← htext, String.toList_append]
    have hlength : p.toList.length + q.toList.length = 48 := by
      rw [← List.length_append, hlist]
      decide +kernel
    have hq' : q.toList.length ≠ 0 := by simpa using hq
    rcases Nat.lt_or_ge p.toList.length 47 with hp | hp
    · have hnone := hprefixes p.toList.length hp
      rw [← hlist, List.take_left, ← toList_workaround] at hnone
      rw [exampleParse, hnone]
    · -- the head without its body
      have hhead : p.toList = exampleHead.toList := by
        rw [String.toList_append] at hlist
        refine (List.append_inj hlist ?_).1
        rw [show exampleHead.toList.length = 47 by decide +kernel]
        omega
      rw [String.toList_inj.mp hhead]
      decide +kernel

/-- In two chunks that are text. -/
theorem exampleRequest_segmented : handleConnection exampleParse true
    [.bytes exampleHead.toByteArray, .bytes "é".toByteArray] =
      handleConnection exampleParse true [.bytes (exampleHead ++ "é").toByteArray] := by
  have hsegments : Segments (exampleHead ++ "é") [exampleHead.toByteArray, "é".toByteArray] :=
    ⟨by simp [joined], by decide +kernel⟩
  refine (segmented_iff exampleRequest hsegments).2.mpr ?_
  simp [String.isValidUTF8]

/-- The last character in two chunks. -/
def splitChunks : List ByteArray := [exampleHead.toByteArray ++ ⟨#[0xC3]⟩, ⟨#[0xA9]⟩]

/-- It is refused. -/
theorem splitChunks_refused : IsRequest exampleParse (exampleHead ++ "é") exampleMessage ∧
    Segments (exampleHead ++ "é") splitChunks ∧
    handleConnection exampleParse true (splitChunks.map .bytes) ≠
      handleConnection exampleParse true [.bytes (exampleHead ++ "é").toByteArray] := by
  have hsegments : Segments (exampleHead ++ "é") splitChunks := by
    constructor
    · decide +kernel
    · decide +kernel
  refine ⟨exampleRequest, hsegments, ?_⟩
  rw [handleConnection_whole exampleRequest, Ne, handleConnection_iff exampleRequest hsegments]
  intro hvalid
  exact absurd (hvalid _ List.mem_cons_self) (by decide +kernel)

end Moonshine.Proof.Segmentation
