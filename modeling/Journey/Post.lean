import Mathlib.Data.List.Basic
import Mathlib.Data.String.Basic

namespace Journey

-- A picked image counts by what UIImageJPEGRepresentation makes of it at the
-- quality of the moment; `none` is an image that has no JPEG representation.
structure UIImage where
  jpeg : Option (List UInt8)
  deriving DecidableEq, Repr

structure Post where
  id : Option String
  text : String
  location : String
  date : String
  image : Option UIImage
  deriving DecidableEq, Repr

def Post.described (post : Post) : Option String × String × String × String :=
  (post.id,post.text,post.location,post.date)

inductive Value where
  | string (text : String)
  | number (value : Int)
  | boolean (value : Bool)
  | node
  deriving DecidableEq, Repr

inductive Child where
  | leaf (value : Value)
  | dictionary (fields : List (String × Value))
  deriving DecidableEq, Repr

-- The dictionary of saveToDatabaseAndAddToArtistsArray. An optional that is nil
-- has no field in the stored record.
def record (post : Post) : Child :=
  .dictionary ((post.id.map fun id => ("id",Value.string id)).toList ++
    [("text",.string post.text),("location",.string post.location),("date",.string post.date),("image",.string "")])

def Child.object : Child → Option (List (String × Value))
  | .leaf _ => none
  | .dictionary fields => some fields

def Value.asString : Value → Option String
  | .string text => some text
  | _ => none

-- `postObject?["…"]` forced to a String: nil when the cast or the unwrapping
-- traps, that is for a child without fields, a missing field or a mistyped one.
def forced (child : Child) (name : String) : Option String :=
  child.object.bind fun fields => (fields.lookup name).bind Value.asString

def readPost (child : Child) : Option Post := do
  let postId ← forced child "id"
  let postText ← forced child "text"
  let postLocation ← forced child "location"
  let postDate ← forced child "date"
  return {id := some postId,text := postText,location := postLocation,date := postDate,image := none}

theorem readPost_record (post : Post) (named : post.id = some key) :
    readPost (record post) = some {post with image := none} := by
  obtain ⟨id,text,location,date,image⟩ := post
  cases named
  simp [readPost,record,forced,Child.object,Value.asString,List.lookup_cons]

end Journey
