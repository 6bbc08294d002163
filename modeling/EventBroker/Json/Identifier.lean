import EventBroker.Json.Reader
import EventBroker.Uuid

/-! # Identifiers in JSON

An identifier is written as a string with its text, and read from a string with any accepted
spelling of it.
-/
set_option autoImplicit false

namespace EventBroker
open Json

/-- The string that a text writes in JSON, if it writes one and nothing else. -/
def Json.readWholeText (bs : List UInt8) : Option String := (decodeWhole Decode.text bs).toOption

def ChannelId.toJson (id : ChannelId) : Json := .string id.toText

def EventId.toJson (id : EventId) : Json := .string id.toText

def ChannelId.ofJson? (bs : List UInt8) : Option ChannelId :=
  (readWholeText bs).bind ChannelId.parse?

def EventId.ofJson? (bs : List UInt8) : Option EventId := (readWholeText bs).bind EventId.parse?

end EventBroker
