import PipeScript.Json.Printer
import PipeScript.Json.Reader
import PipeScript.Value.Literal

/-!
# Envelopes

The state of a chain of control commands travels over the pipe as JSON text.  A dictionary is an
envelope when it has one of the telling keys, not null, and the first of them in the order
`if`, `isException`, `switch` decides which; every other text is none.
-/

namespace PipeScript

/-- The state of a chain of control commands. -/
inductive Envelope where
  /-- The outcome of the last condition. -/
  | condition (outcome : Bool)
  /-- What a tried command gave. -/
  | returned (result : Value)
  /-- The message of a tried command that failed. -/
  | raised (message : Option String)
  /-- The value that cases are compared with. -/
  | switch (subject : Value)

namespace Envelope

/-- A dictionary with the members that are not null. -/
def members (pairs : List (String × Value)) : Value :=
  .dict ((pairs.filter fun (_, v) => !v.isNull).map fun (k, v) => (.text k, v))

/-- The dictionary of an envelope. -/
def toValue : Envelope → Value
  | .condition outcome => .dict [(.text "if", .bool outcome)]
  | .returned result => members [("isException", .bool false), ("result", result)]
  | .raised message =>
    .dict [(.text "isException", .bool true),
      (.text "exception", match message with | some s => .text s | none => .null)]
  | .switch subject => members [("switch", subject)]

/-- The text of an envelope. -/
def encode (e : Envelope) : String :=
  e.toValue.json

/-- The member of a dictionary, unless it is null. -/
def member? (entries : Entries Value) (key : String) : Option Value :=
  (entries.get? (.text key)).filter fun v => !v.isNull

/-- The envelope that a dictionary is. -/
def ofEntries? (entries : Entries Value) : Option Envelope :=
  match member? entries "if" with
  | some outcome => some (.condition outcome.isGiven)
  | none =>
    match member? entries "isException" with
    | some flag =>
      if flag.isGiven then some (.raised ((member? entries "exception").map Value.messageText))
      else some (.returned ((member? entries "result").getD .null))
    | none => (member? entries "switch").map .switch

/-- The envelope that a text carries. -/
def decode? (s : String) : Option Envelope :=
  match Json.parse? s with
  | some (.dict entries) => ofEntries? entries
  | _ => none

end Envelope

end PipeScript
