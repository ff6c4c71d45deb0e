import StorageFeatures.Api.Answer
import StorageFeatures.Api.Call
import StorageFeatures.Http.Form

/-!
# Watching over the API

A kind is watched by listing it in parts and then asking for everything that changed after the
revision of the list. The server answers with a stream of lines; each line is a document that
says what happened to one object, how far the stream has come, or what went wrong.
-/

namespace StorageFeatures.Api

open Json

/-! ### Requests -/

/-- The number of objects in a part of a list. -/
def listPartSize : Nat := 500

/-- How long the server keeps a watch open, in seconds. -/
def watchSeconds : Nat := 290

/-- The request for the first part of a list or for the part that continues it. -/
def listPartRequest (k : Kind) (continuation : Option String) : Except Fault Http.Request :=
  makeRequest "GET" (k.path ++ "?" ++ Http.Form.pairs (("limit", toString listPartSize) ::
    match continuation with
    | some token => [("continue", token)]
    | none => [])) none

/-- The request for all changes after a revision. -/
def watchRequest (k : Kind) (revision : String) : Except Fault Http.Request :=
  makeRequest "GET" (k.path ++ "?" ++ Http.Form.pairs
    [("watch", "true"), ("timeoutSeconds", toString watchSeconds), ("allowWatchBookmarks", "true"),
     ("resourceVersion", revision)]) none

/-! ### Lines -/

/-- What a line of a watch says. -/
inductive WatchLine (α : Type) where
  /-- The object is new or has changed. -/
  | applied (object : α)
  | deleted (object : α)
  /-- Nothing changed up to a revision. -/
  | bookmark (revision : String)
  /-- The server cannot go on. -/
  | failed (response : ErrorResponse)
  | unreadable
  /-- The line breaks off in the middle of its document. -/
  | cutOff

/-- Reads how far the stream has come. -/
def readBookmark : Reads String
  | .object ms => do
    let _ ← require "apiVersion" (← field ms "apiVersion" readString)
    let _ ← require "kind" (← field ms "kind" readString)
    require "metadata" (← field ms "metadata" fun
      | .object ms => do
        let revision ← field ms "resourceVersion" readString
        let _ ← field ms "annotations" readNames
        require "resourceVersion" revision
      | j => .error (.wrongType j.found "struct BookmarkMeta"))
  | j => .error (.wrongType j.found "struct Bookmark")

/-- The words that say what a line is about. -/
def watchWords : List String := ["ADDED", "MODIFIED", "DELETED", "BOOKMARK", "ERROR"]

/-- Reads the document of a line of some kind. -/
def readWatched (reader : Reads α) (word : String) : Reads (WatchLine α) := fun j =>
  match word with
  | "ADDED" | "MODIFIED" => (reader j).map .applied
  | "DELETED" => (reader j).map .deleted
  | "BOOKMARK" => (readBookmark j).map .bookmark
  | "ERROR" => (ErrorResponse.ofJson j).map .failed
  | word => .error (.unknownVariant word watchWords)

/-- Reads a line: a word and a document, which may also stand in an array. -/
def readWatchLine (reader : Reads α) : Reads (WatchLine α)
  | .object ms => do
    let word ← require "type" (← field ms "type" readString)
    require "object" (← field ms "object" (readWatched reader word))
  | .array items => do
    let shape := "adjacently tagged enum WatchEvent"
    let word ← requireItem 0 shape (← item items 0 readString)
    let line ← requireItem 1 shape (← item items 1 (readWatched reader word))
    noMoreItems items 2
    return line
  | j => .error (.wrongType j.found "adjacently tagged enum WatchEvent")

/-- What a line says. -/
def watchLine (reader : Reads α) (line : String) : WatchLine α :=
  match parse line with
  | .ok j =>
    match readWatchLine reader j with
    | .ok said => said
    | .error _ => .unreadable
  | .error e => if e.cause.isEnd then .cutOff else .unreadable

end StorageFeatures.Api
