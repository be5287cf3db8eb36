/-!
Header names that the protocol itself uses. A name that begins with a colon belongs to the
protocol; every other name belongs to the application.
-/

set_option autoImplicit false

namespace EventStream.Header

def eventType : String := ":event-type"

def messageType : String := ":message-type"

def contentType : String := ":content-type"

def exceptionType : String := ":exception-type"

def errorCode : String := ":error-code"

def errorMessage : String := ":error-message"

def knownNames : List String :=
  [eventType, messageType, contentType, exceptionType, errorCode, errorMessage]

/-- Names with a leading colon are kept for the protocol. -/
def isReserved (name : String) : Bool :=
  name.toList.head? == some ':'

def isKnown (name : String) : Bool :=
  knownNames.contains name

end EventStream.Header
