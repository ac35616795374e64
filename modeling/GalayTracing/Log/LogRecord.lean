import GalayTracing.Context.ContextStorage

/-!
# Log records

A log call makes a record of its message and of the context that is current on its thread, and hands
it to the writer if the writer has the level enabled.
-/

namespace GalayTracing

/-- `LogLevel`. -/
inductive LogLevel
  | kTrace
  | kDebug
  | kInfo
  | kWarn
  | kError
  | kOff
  deriving DecidableEq

/-- `SourceLocation`. -/
structure SourceLocation where
  file : ByteString := []
  line : ℕ := 0
  function : ByteString := []
  deriving DecidableEq

/-- `LogRecord`. -/
structure LogRecord where
  level : LogLevel := .kInfo
  message : ByteString
  source : SourceLocation
  context : Option LogContext
  timestamp : ℤ
  deriving DecidableEq

/-- A log call: its level, the formatted message, its place in the source, and the time. -/
structure LogCall where
  level : LogLevel
  message : ByteString
  source : SourceLocation
  now : ℤ
  deriving DecidableEq

/-- `logAt`: the record that is written, if the writer has the level enabled. -/
def logAt (isEnabled : LogLevel → Bool) (call : LogCall) (state : CurrentContextState) :
    Option LogRecord :=
  if !isEnabled call.level then none
  else some
    { level := call.level
      message := call.message
      source := call.source
      context := makeLogContext (currentContext state)
      timestamp := call.now }

/-- `logWithContextAt`, with the context given explicitly: the record that is written, if the writer
has the level enabled. -/
def logWithContextAt (isEnabled : LogLevel → Bool) (call : LogCall)
    (context : Option TraceContext) : Option LogRecord :=
  if !isEnabled call.level then none
  else some
    { level := call.level
      message := call.message
      source := call.source
      context := makeLogContext context
      timestamp := call.now }

/-- The identity in a record is that of the current context. -/
lemma context_of_logAt {isEnabled : LogLevel → Bool} {call : LogCall} {state : CurrentContextState}
    {record : LogRecord} (hlog : logAt isEnabled call state = some record) :
    record.context = makeLogContext (currentContext state) := by
  unfold logAt at hlog
  split_ifs at hlog
  rw [← Option.some_inj.mp hlog]

/-- The identity in a record is that of the given context. -/
lemma context_of_logWithContextAt {isEnabled : LogLevel → Bool} {call : LogCall}
    {context : Option TraceContext} {record : LogRecord}
    (hlog : logWithContextAt isEnabled call context = some record) :
    record.context = makeLogContext context := by
  unfold logWithContextAt at hlog
  split_ifs at hlog
  rw [← Option.some_inj.mp hlog]

end GalayTracing
