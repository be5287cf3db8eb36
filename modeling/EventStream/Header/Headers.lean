import EventStream.Assoc
import EventStream.Header.Value

/-!
The headers of a frame: a finite map from names to values, kept in ascending order of names.
-/

set_option autoImplicit false

namespace EventStream

structure Headers where
  entries : List (String × Header.Value)
  ascending : Assoc.Ascending entries
  deriving DecidableEq

namespace Headers

def empty : Headers := ⟨[], List.Pairwise.nil⟩

instance : Inhabited Headers := ⟨empty⟩

/-- Sets a header; a value that the name had before is lost. -/
def insert (headers : Headers) (name : String) (value : Header.Value) : Headers :=
  ⟨Assoc.insert name value headers.entries, headers.ascending.insert name value⟩

def get? (headers : Headers) (name : String) : Option Header.Value :=
  Assoc.get? name headers.entries

def getString? (headers : Headers) (name : String) : Option String :=
  (headers.get? name).bind Header.Value.asString?

def size (headers : Headers) : Nat :=
  headers.entries.length

/-- Sets the entries one after the other, so the last of equal names wins. -/
def insertAll (headers : Headers) (entries : List (String × Header.Value)) : Headers :=
  entries.foldl (fun h e => h.insert e.1 e.2) headers

def ofList (entries : List (String × Header.Value)) : Headers :=
  empty.insertAll entries

/-- Bytes of an entry on the wire: a length byte, the name, the tag and the value. -/
def entryLength (entry : String × Header.Value) : Nat :=
  1 + entry.1.utf8ByteSize + 1 + entry.2.encodedLength

def encodedLength (headers : Headers) : Nat :=
  headers.entries.foldr (fun entry n => entryLength entry + n) 0

end Headers

end EventStream
