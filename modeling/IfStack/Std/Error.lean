/-! # Errors

`std::io::Error` as the program builds and inspects it: a kind and a message. A
message is kept as the parts of its format string, so that an argument printed
with `{:?}` stays apart from its printed form.
-/

namespace IfStack

/-- The kinds of `std::io::ErrorKind` the program names, and one for the others. -/
inductive ErrorKind
  | other
  | invalidData
  | invalidInput
  | unexpectedEof
  | timedOut
  | wouldBlock
  | interrupted
  | writeZero
  | notFound
  | system
deriving DecidableEq, Repr

/-- A part of a formatted message: literal text, an argument printed with `{}`,
or a string printed with `{:?}`. -/
inductive MessagePart
  | text (literal : String)
  | display (printed : String)
  | debug (value : String)
deriving DecidableEq, Repr

/-- `std::io::Error`. -/
structure Error where
  kind : ErrorKind
  message : List MessagePart
deriving DecidableEq, Repr

namespace Error

/-- `Error::other` with a plain message. -/
def other (message : String) : Error := ⟨.other, [.text message]⟩

/-- `invalid`, the same helper in every module: an `InvalidData` error. -/
def invalid (message : String) : Error := ⟨.invalidData, [.text message]⟩

end Error
end IfStack
