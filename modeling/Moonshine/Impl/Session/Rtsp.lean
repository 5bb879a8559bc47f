/-!
# Reading a request, `rtsp.rs`

`handle_connection` up to the message: what is read is taken for text chunk by
chunk, and the text so far is parsed again after each. The crate that parses RTSP
messages is not here: `Message::parse` is a parameter.
-/

namespace Moonshine.Impl.Rtsp

/-- `replace`, from after the first `skip` characters, which belong to what was replaced. -/
def replaceFrom (pattern new : List Char) : (skip : Nat) → List Char → List Char
  | _, [] => []
  | skip + 1, _ :: cs => replaceFrom pattern new skip cs
  | 0, c :: cs =>
    if pattern.isPrefixOf (c :: cs) then new ++ replaceFrom pattern new (pattern.length - 1) cs
    else c :: replaceFrom pattern new 0 cs

/-- `str::replace`. -/
def replace (cs : List Char) (pattern new : String) : List Char := replaceFrom pattern.toList new.toList 0 cs

/-- The workaround for the requests of Moonlight that the crate does not parse. -/
def workaround (messageBuffer : String) : String :=
  let messageBuffer := replace messageBuffer.toList "streamid" "rtsp://localhost?streamid"
  String.ofList (replace messageBuffer "PLAY /" "PLAY rtsp://localhost/")

/-- What `Message::parse` returns. -/
inductive Parsed (Message : Type)
  | ok (message : Message)
  | incomplete
  | error
  deriving DecidableEq

/-- A `read` from the connection: the bytes, at most 2048 of them, none at the end of it. -/
inductive Read
  | bytes (buffer : ByteArray)
  | error

/-- How `handle_connection` gets on with the message. -/
inductive Received (Message : Type)
  | message (message : Message)
  /-- It returns `Ok`, with nothing received. -/
  | closed
  /-- It returns `Err`. -/
  | failed
  /-- It waits for the next read. -/
  | waiting
  deriving DecidableEq

variable {Message : Type} (parse : String → Parsed Message)

/-- The loop, from the text so far. -/
def receive (messageBuffer : String) : List Read → Received Message
  | [] => .waiting
  | .error :: _ => .failed
  | .bytes buffer :: reads =>
    if buffer.size = 0 then .closed
    else match String.fromUTF8? buffer with
      | none => .failed
      | some chunk => match parse (workaround (messageBuffer ++ chunk)) with
        | .ok message => .message message
        | .incomplete => receive (messageBuffer ++ chunk) reads
        | .error => .failed

/-- `handle_connection`, whether a session is initialized or not. -/
def handleConnection (initialized : Bool) (reads : List Read) : Received Message :=
  if initialized then receive parse "" reads else .closed

end Moonshine.Impl.Rtsp
