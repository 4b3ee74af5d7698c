/-!
# String formats

The formats of a string that have a type of their own in a target language. A string with any other
format is a plain string.
-/

namespace RpcForge

/-- A format of a string that has a type of its own. -/
inductive StringFormat where
  /-- A day. -/
  | date
  /-- A time of day. -/
  | time
  /-- A day and a time of day. -/
  | dateTime
  /-- A span of time. -/
  | duration
  /-- An identifier of any version. -/
  | uuid
  /-- An identifier of version 1. -/
  | uuid1
  /-- An identifier of version 3. -/
  | uuid3
  /-- An identifier of version 4. -/
  | uuid4
  /-- An identifier of version 5. -/
  | uuid5
  /-- Bytes. -/
  | binary
deriving DecidableEq, Repr

namespace StringFormat

/-- All formats. -/
def all : List StringFormat :=
  [.date, .time, .dateTime, .duration, .uuid, .uuid1, .uuid3, .uuid4, .uuid5, .binary]

/-- How a format is written in a schema. -/
def name : StringFormat → String
  | .date => "date"
  | .time => "time"
  | .dateTime => "date-time"
  | .duration => "duration"
  | .uuid => "uuid"
  | .uuid1 => "uuid1"
  | .uuid3 => "uuid3"
  | .uuid4 => "uuid4"
  | .uuid5 => "uuid5"
  | .binary => "binary"

/-- The format that is written in a given way. -/
def ofName? (text : String) : Option StringFormat :=
  all.find? (·.name == text)

end StringFormat

end RpcForge
