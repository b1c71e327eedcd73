import Amqp.Composite.Descriptor
import Amqp.Composite.Fields

/-!
# Errors that peers report

The error inside a Detach, an End, a Close or a rejected delivery: a condition, an optional
description and optional further information.
-/

namespace Amqp

/-- An error reported to or by the peer. -/
structure ErrorInfo where
  condition : String
  description : Option String := none
  info : Option Entries := none

namespace ErrorInfo

/-- The error as a value. -/
def toValue (e : ErrorInfo) : Value :=
  composite Descriptor.error
    [.symbol e.condition, .ofOption .string e.description, .ofOption .map e.info]

/-- The fields of an error. -/
def fields : Fields ErrorInfo := do
  let condition ← Fields.required "condition" Fields.text
  let description ← Fields.optional "description" Fields.text
  let info ← Fields.optional "info" Fields.map
  return { condition, description, info }

/-- The error in a value. -/
def ofValue (v : Value) : Except Fault ErrorInfo := readComposite "error" Descriptor.error fields v

/-- The condition, and the description behind it if there is one. -/
def text (e : ErrorInfo) : String :=
  match e.description with
  | some description => e.condition ++ ": " ++ description
  | none => e.condition

end ErrorInfo

end Amqp
