import ClockGating.Register

/-!
# Events — what an observer of the bus sees

Running a routine leaves a trace: every register access with its absolute address and the value
that went over the bus, the begin and the end of every critical section, and every log record. The
trace holds one event for each and in the order in which they happened.
-/

namespace ClockGating

inductive LogLevel where
  | debug
  | trace
deriving DecidableEq

/-- One entry of a trace. -/
inductive Event where
  /-- The register at this address was read and held this value. -/
  | read (address value : Word)
  /-- This value was written to the register at this address. -/
  | write (address value : Word)
  | enter
  | leave
  | log (level : LogLevel) (text : String)
deriving DecidableEq

def LogLevel.name : LogLevel → String
  | debug => "DEBUG"
  | trace => "TRACE"

def Event.text : Event → String
  | read a v => "R " ++ Word.hex a ++ " " ++ Word.hex v
  | write a v => "W " ++ Word.hex a ++ " " ++ Word.hex v
  | enter => "CS enter"
  | leave => "CS leave"
  | log level text => "LOG " ++ level.name ++ " " ++ text

end ClockGating
