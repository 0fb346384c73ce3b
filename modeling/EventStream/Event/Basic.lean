/-!
# Events

An event is what a stream delivers: some data, together with the identifier, the type and the
reconnection time that the stream gave it.
-/

namespace EventStream

/-- A decoded event. An identifier or type that the stream did not give is the empty text. -/
@[ext] structure Event where
  /-- The identifier to resume after. -/
  id : String := ""
  /-- The type of the event. -/
  type : String := ""
  /-- The data, with its lines joined by line feeds. -/
  data : String
  /-- The reconnection time that came with the event. It is handed on and has no effect here. -/
  retry : Option UInt64 := none
deriving DecidableEq, Repr

end EventStream
