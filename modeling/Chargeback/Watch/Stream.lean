import Chargeback.Cluster.Page
import Chargeback.Cluster.Reply
import Chargeback.Watch.Known

/-!
# Streams of watch events

A watch first lists all objects of a kind, page by page, and then follows their
changes from the version of the list on. When it cannot tell any more which
version it has seen, it lists everything anew. Failures are part of the stream
and do not end it.

## Main definitions

* `WatchFailure`, `WatchItem`: what a stream consists of.
* `WatchStream`: where a stream stands.
* `WatchStream.request`: what it asks the cluster for next.
* `WatchStream.receive`: the items that a reply brings, and the stream after it.
-/

namespace Chargeback

/-- Why a watch brought no event. -/
inductive WatchFailure where
  | initialList
  | watchStart
  /-- The cluster reported an error as an event. -/
  | reported
  /-- What came was no event. -/
  | stream
  | noVersion
deriving DecidableEq, Repr

namespace WatchFailure

/-- The text of a failure. -/
def message : WatchFailure → String
  | initialList => "failed to perform initial object list"
  | watchStart => "failed to start watching object"
  | reported => "error returned by apiserver during watch"
  | stream => "watch stream failed"
  | noVersion => "no metadata.resourceVersion in watch result (does resource support watch?)"

end WatchFailure

/-- An item of a stream. -/
inductive WatchItem where
  | event (e : WatchEvent)
  | failure (f : WatchFailure)

/-- What a stream asks the cluster for. -/
inductive WatchRequest where
  /-- A page of all objects. -/
  | list (continueToken : Option String)
  /-- The changes since a version. -/
  | follow (version : String)
deriving DecidableEq, Repr

/-- Where a stream stands. -/
inductive WatchStream where
  /-- Some pages have been collected. -/
  | listing (continueToken : Option String) (collected : List Resource)
  /-- Everything up to a version has been seen. -/
  | following (version : String)

/-! ## Lines -/

/-- An event as it stands in a line. -/
inductive WatchLine where
  | applied (r : Resource)
  | deleted (r : Resource)
  /-- Nothing but the version that the watch has reached. -/
  | bookmark (version : String)
  | error (e : ApiError)

namespace WatchLine

/-- The version that a bookmark gives. -/
def bookmark? (j : Json) : Option String := do
  let f ← Fields.ofJson? j
  let _ ← (f.get? "apiVersion").bind Json.text?
  let _ ← (f.get? "kind").bind Json.text?
  let metadata ← (f.get? "metadata").bind Fields.ofJson?
  (metadata.get? "resourceVersion").bind Json.text?

/-- The event of a type, with the object that belongs to it. -/
def ofObject? (kind : ResourceKind) (type : String) (object : Json) : Option WatchLine :=
  match type with
  | "ADDED" | "MODIFIED" => (Resource.ofJson? kind object).map applied
  | "DELETED" => (Resource.ofJson? kind object).map deleted
  | "BOOKMARK" => (bookmark? object).map bookmark
  | "ERROR" => (ApiError.ofJson? object).map error
  | _ => none

/-- The event that a JSON value gives. -/
def ofJson? (kind : ResourceKind) (j : Json) : Option WatchLine := do
  let r ← Json.record? ["type", "object"] j
  ofObject? kind (← r.required? "type" Json.text?) (← r.get? "object")

/-- How far a text has been scanned: within a string, and behind how many open
brackets. -/
structure Scan where
  inString : Bool := false
  escaped : Bool := false
  depth : Nat := 0
  blank : Bool := true

/-- Scan a character. -/
def Scan.next (s : Scan) (c : Char) : Scan :=
  let s := { s with blank := s.blank && Json.isSpace c }
  if s.inString then
    if s.escaped then { s with escaped := false }
    else if c = '\\' then { s with escaped := true }
    else { s with inString := c ≠ '"' }
  else if c = '"' then { s with inString := true }
  else if c = '[' || c = '\x7b' then { s with depth := s.depth + 1 }
  else if c = ']' || c = '\x7d' then { s with depth := s.depth - 1 }
  else s

/-- The text is blank, or ends within a string or before a bracket is closed. -/
def breaksOff (text : String) : Bool :=
  let s := text.toList.foldl Scan.next {}
  s.blank || s.inString || 0 < s.depth

end WatchLine

/-! ## The stream -/

namespace WatchStream

/-- Nothing has been seen yet. -/
def start : WatchStream := listing none []

/-- What a stream asks for next. -/
def request : WatchStream → WatchRequest
  | listing token _ => .list token
  | following version => .follow version

/-- A text that says something. -/
def nonempty? (s : Option String) : Option String := s.filter (· ≠ "")

/-- The items that a page brings: with the last page the stream starts over from
all collected objects. -/
def receivePage (collected : List Resource) (page : Page Resource) :
    List WatchItem × WatchStream :=
  let collected := collected ++ page.items
  match nonempty? page.continueToken, nonempty? page.version with
  | some token, _ => ([], listing (some token) collected)
  | none, some version => ([.event (.restarted collected)], following version)
  | none, none => ([.failure .noVersion], start)

/-- The items that the reply to a list brings. -/
def receiveList (kind : ResourceKind) (collected : List Resource) (reply : Reply) :
    List WatchItem × WatchStream :=
  match reply.value (Page.ofJson? (Resource.ofJson? kind)) with
  | .ok page => receivePage collected page
  | .error _ => ([.failure .initialList], start)

/-- The items that an event brings. It tells the version that has been reached,
unless the stream has to start anew. -/
def receiveEvent (version : String) : WatchLine → List WatchItem × Option String
  | .applied r =>
    match nonempty? r.metadata.resourceVersion with
    | some version => ([.event (.applied r)], some version)
    | none => ([.failure .noVersion], none)
  | .deleted r =>
    match nonempty? r.metadata.resourceVersion with
    | some version => ([.event (.deleted r)], some version)
    | none => ([.failure .noVersion], none)
  | .bookmark version => ([], some version)
  | .error e => ([.failure .reported], if e.code = 410 then none else some version)

/-- The items that a line brings. A line that breaks off does not count. -/
def receiveLine (kind : ResourceKind) (version line : String) :
    List WatchItem × Option String :=
  match (Json.parse? line).bind (WatchLine.ofJson? kind) with
  | some e => receiveEvent version e
  | none => (if WatchLine.breaksOff line then [] else [.failure .stream], some version)

/-- The items that lines bring, up to one after which the stream starts anew. -/
def receiveLines (kind : ResourceKind) (version : String) :
    List String → List WatchItem × WatchStream
  | [] => ([], following version)
  | line :: rest =>
    match receiveLine kind version line with
    | (items, none) => (items, start)
    | (items, some version) =>
      let (more, stream) := receiveLines kind version rest
      (items ++ more, stream)

/-- The lines of a body. -/
def linesOf (body : String) : List String := body.splitOn "\n"

/-- The items that the reply to a watch brings. Its status does not matter, since
an error is described in a line too. -/
def receiveChanges (kind : ResourceKind) (version : String) :
    Reply → List WatchItem × WatchStream
  | .answered _ body => receiveLines kind version (linesOf body)
  | .aborted => ([.failure .stream], following version)
  | .failed _ => ([.failure .watchStart], following version)

/-- The items that a reply brings, and the stream after it. -/
def receive (kind : ResourceKind) (s : WatchStream) (reply : Reply) :
    List WatchItem × WatchStream :=
  match s with
  | listing _ collected => receiveList kind collected reply
  | following version => receiveChanges kind version reply

end WatchStream

end Chargeback
