import DeviceProtocol.Token
set_option autoImplicit false

/-!
What can go wrong. A fault has a cause, a place, and notes on the units around it; the wording of
causes and notes stands here and nowhere else.
-/
namespace DeviceProtocol

inductive FaultKind where
  | general
  | fileNotFound
  | invalidFile
  | malformed
  | undefinedReference
  | valueRange
  | garbage
  | format
  | unusedHandler
  | recursionDepth
  deriving DecidableEq, Repr

/-- Why reading, instantiating or compiling a protocol failed. -/
inductive Cause where
  -- reading tokens
  | endInsideBlock
  | referenceNameExpected (found : Text)
  | referenceUnclosed (found : Option Char) (name : Text)
  | endAfterDollar
  | unexpectedAfterDollar (found : Char)
  | unterminatedString (quote : Quote) (text : Text)
  | backslashAtLineEnd (quote : Quote) (text : Text)
  -- reading definitions
  | unmatchedClose
  | nameExpected (before : Char)
  | unexpectedToken (source : Text)
  | bodyExpected (found : Option Char) (name : Text)
  | handlerBodyExpected (name : Text)
  | definitionExpected (found : Option Char) (name : Text)
  | assignmentInHandler
  | variableNamedAsHandler (name : Text)
  | nestedHandler (name : Text)
  | nestedDefinition (name : Text)
  | redefinition (name : Text)
  | unexpectedParameter (source name : Text)
  | repeatedParameter (parameter name : Text)
  | tooManyParameters (name : Text)
  | unexpectedInValue (text : Text)
  -- instantiating
  | argumentsUnclosed (text : Text)
  | textAfterArguments (text : Text)
  | protocolNotFound (name : Text) (file : Option Text)
  -- references
  | argumentMissing (name : Text)
  | variableUndefined (name : Text)
  | nestedTooDeep (limit : Int)
  -- numbers
  | numberExpected (text : Text)
  | textAfterNumber (text : Text)
  | numberOutOfRange (text : Text) (limit : Int)
  -- strings
  | unexpectedInString (text : Text)
  | inputOnly (text : Text)
  | textAfterByte (text : Text)
  | byteOutOfRange (text : Text)
  | unexpectedByte (code : Nat)
  | backslashAtEnd
  | octalOutOfRange (value : Nat) (digits : Text)
  | hexDigitExpected (text : Text)
  | decimalOutOfRange (value : Nat) (digits : Text)
  -- formats
  | fieldNotPossible
  | fieldUnclosed
  | fieldNotFound (name : Text)
  | formatWithoutType (conversion : Char)
  | fieldOfPseudoFormat (name : Text) (conversion : Char)
  | fieldSkipped
  | formatStartExpected (source : Text)
  | widthTooLarge (source : Text)
  | conversionMissing (source : Text)
  | conversionUnknown (conversion : Char)
  | skipOnOutput
  | charSetUnclosed (source : Text)
  | enumUnclosed (source : Text)
  | enumEmpty
  | checksumUnclosed (source : Text)
  | checksumUnknown (name : Text)
  -- commands
  | noCommandSet
  | commandUnknown (name : Text)
  | maskUnclosed
  | textAfterCommand (name rest : Text)
  -- variables and handlers
  | textAfterVariable (name : Text) (value : Int) (rest : Text)
  | choiceExpected (text : Text) (choices : List Text) (name : Text)
  | handlerUnknown (name : Text)
  -- files
  | fileNotFound (name : Text) (path : List Text)
  | fileInvalid (name : Text)
  /-- A failure that a collaborator describes in its own words. -/
  | stated (kind : FaultKind) (message : Text)
  deriving DecidableEq, Repr

namespace Cause

def kind : Cause → FaultKind
  | endInsideBlock | referenceNameExpected _ | referenceUnclosed .. | endAfterDollar
  | unexpectedAfterDollar _ | unterminatedString .. | backslashAtLineEnd .. => .malformed
  | unmatchedClose | nameExpected _ | unexpectedToken _ | bodyExpected .. | handlerBodyExpected _
  | definitionExpected .. | assignmentInHandler | variableNamedAsHandler _ | nestedHandler _
  | nestedDefinition _ | redefinition _ | unexpectedParameter .. | repeatedParameter ..
  | tooManyParameters _ | unexpectedInValue _ => .malformed
  | argumentsUnclosed _ | textAfterArguments _ => .malformed
  | protocolNotFound .. | argumentMissing _ | variableUndefined _ => .undefinedReference
  | nestedTooDeep _ => .recursionDepth
  | numberExpected _ => .malformed
  | textAfterNumber _ => .garbage
  | numberOutOfRange .. => .valueRange
  | unexpectedInString _ | inputOnly _ => .malformed
  | textAfterByte _ => .garbage
  | byteOutOfRange _ => .valueRange
  | unexpectedByte _ | backslashAtEnd | hexDigitExpected _ => .malformed
  | octalOutOfRange .. | decimalOutOfRange .. => .valueRange
  | fieldNotPossible | fieldUnclosed => .format
  | fieldNotFound _ => .undefinedReference
  | formatWithoutType _ | fieldOfPseudoFormat .. | fieldSkipped | formatStartExpected _
  | widthTooLarge _ | conversionMissing _ | conversionUnknown _ | skipOnOutput | charSetUnclosed _
  | enumUnclosed _ | enumEmpty | checksumUnclosed _ | checksumUnknown _ => .format
  | noCommandSet => .general
  | commandUnknown _ | maskUnclosed => .malformed
  | textAfterCommand .. | textAfterVariable .. => .garbage
  | choiceExpected .. => .valueRange
  | handlerUnknown _ => .unusedHandler
  | fileNotFound .. => .fileNotFound
  | fileInvalid _ => .invalidFile
  | stated kind _ => kind

def shown (c : Option Char) : String := String.ofList c.toList

def message : Cause → String
  | endInsideBlock => "Unexpected end of file (looking for '\x7d')"
  | referenceNameExpected found =>
    s!"Expect variable name after '$\x7b' instead of '{found.str}'"
  | referenceUnclosed found name =>
    s!"Expect '\x7d' instead of '{shown found}' after: $\x7b{name.str}"
  | endAfterDollar => "Unexpected end of file after '$'"
  | unexpectedAfterDollar found => s!"Unexpected '{found}' after '$'"
  | unterminatedString quote text => s!"Unterminated quoted string: {quote.char}{text.str}"
  | backslashAtLineEnd quote text => s!"Backslash at end of line: {quote.char}{text.str}"
  | unmatchedClose => "Unexpected '\x7d' (no matching '\x7b') in global context"
  | nameExpected before => s!"Expect name before '{before}'"
  | unexpectedToken source => s!"Unexpected '{source.str}'"
  | bodyExpected found name =>
    s!"Expect '\x7b' instead of '{shown found}' after parameters of '{name.str}'"
  | handlerBodyExpected name => s!"Expect '\x7b' after handler name '{name.str}'"
  | definitionExpected found name =>
    s!"Expect '=' or '\x7b' instead of '{shown found}' after '{name.str}'"
  | assignmentInHandler => "Variable assignment in handler context"
  | variableNamedAsHandler name => s!"Variable name '{name.str}' must not start with '@'"
  | nestedHandler name => s!"Handler '{name.str}' defined in handler context"
  | nestedDefinition name =>
    s!"Definition of '{name.str}' not in global context (missing '\x7d' ?)"
  | redefinition name => s!"Protocol '{name.str}' redefined"
  | unexpectedParameter source name =>
    s!"Unexpected '{source.str}' in parameter list of '{name.str}'"
  | repeatedParameter parameter name => s!"Parameter '{parameter.str}' repeated in '{name.str}'"
  | tooManyParameters name => s!"Protocol '{name.str}' has more than 9 parameters"
  | unexpectedInValue text => s!"Unexpected '{text.str}' (missing ';' or '\"' ?)"
  | argumentsUnclosed text => s!"Missing ')' after protocol arguments: '{text.str}'"
  | textAfterArguments text => s!"Garbage after protocol arguments: '{text.str}'"
  | protocolNotFound name file =>
    s!"Protocol '{name.str}' not found in protocol file '{(Text.orNone file).str}'"
  | argumentMissing name => s!"Missing value for parameter ${name.str}"
  | variableUndefined name => s!"Undefined variable '{name.str}' referenced"
  | nestedTooDeep limit =>
    s!"Variable references nested deeper than {limit} (reference cycle?)"
  | numberExpected text => s!"Unsigned numeric value expected: {text.str}"
  | textAfterNumber text => s!"Garbage after numeric value: {text.str}"
  | numberOutOfRange text limit => s!"Value {text.str} out of range [0...{limit}]"
  | unexpectedInString text => s!"Unexpected '{text.str}' in string"
  | inputOnly text => s!"Use of '{text.str}' only allowed in input formats"
  | textAfterByte text => s!"Garbage after numeric source: {text.str}"
  | byteOutOfRange text => s!"Value {text.str} does not fit in byte"
  | unexpectedByte code => s!"Unexpected byte 0x{(Text.numeral 16 2 code).str}"
  | backslashAtEnd => "Backslash at end of string"
  | octalOutOfRange value digits =>
    s!"Octal number 0o{(Text.numeral 8 1 value).str} does not fit in byte: \"\x5c{digits.str}\""
  | hexDigitExpected text => s!"Hex digit expected after \x5cx: \"\x5c{text.str}\""
  | decimalOutOfRange value digits =>
    s!"Decimal number {value} does not fit in byte: \"\x5c{digits.str}\""
  | fieldNotPossible => "Using fieldname is not possible in this context"
  | fieldUnclosed => "Missing ')' after field name"
  | fieldNotFound name => s!"Field '{name.str}' not found"
  | formatWithoutType conversion =>
    s!"Illegal format type returned from '%{conversion}' converter"
  | fieldOfPseudoFormat name conversion =>
    s!"Fieldname not allowed with pseudo format: '%({name.str}){conversion}'"
  | fieldSkipped => "Use of skip modifier '*' not allowed together with redirection"
  | formatStartExpected source => s!"Format must start with '%': {source.str}"
  | widthTooLarge source => s!"Field width or precision too large: {source.str}"
  | conversionMissing source => s!"Missing conversion character: {source.str}"
  | conversionUnknown conversion => s!"Unknown format conversion character '{conversion}'"
  | skipOnOutput => "Use of skip modifier '*' only allowed in input formats"
  | charSetUnclosed source => s!"Missing ']' after %[ format: {source.str}"
  | enumUnclosed source => s!"Missing '\x7d' after %\x7b format: {source.str}"
  | enumEmpty => "Empty enum format %\x7b\x7d"
  | checksumUnclosed source => s!"Missing '>' after %< format: {source.str}"
  | checksumUnknown name => s!"Unknown checksum algorithm '{name.str}'"
  | noCommandSet => "No command compiler available"
  | commandUnknown name => s!"Unknown command name '{name.str}'"
  | maskUnclosed => "Expect ')' after event mask"
  | textAfterCommand name rest => s!"Garbage after '{name.str}' command: '{rest.str}'"
  | textAfterVariable name value rest =>
    s!"Garbage in variable '{name.str}' after numeric value {value}: {rest.str}"
  | choiceExpected text choices name =>
    let alternatives := " or ".intercalate (choices.map fun c => s!"'{c.str}'")
    s!"Value '{text.str}' must be one of {alternatives} in variable '{name.str}'"
  | handlerUnknown name => s!"Unknown handler {name.str} defined"
  | fileNotFound name path =>
    let directories := Text.joinWith [':'] path
    s!"Can't find readable file '{name.str}' in '{directories.str}'"
  | fileInvalid name => s!"Protocol file '{name.str}' is invalid (see above)"
  | stated _ message => message.str

end Cause

/-- A unit around the place of a fault, or another place to look at. -/
inductive Note where
  | afterCommand (name : Text)
  | inAssignment (name : Text)
  | inHandler (name : Text)
  | inProtocol (name : Text)
  | firstDefinition (name : Text)
  | inCommand (name : Text)
  | inFormat (source : Text)
  | inVariable (name : Text)
  | inStringVariable (name : Text)
  | usedByProtocol (name : Text)
  | inInvalidFile (name : Text)
  | stated (message : Text)
  deriving DecidableEq, Repr

def Note.message : Note → String
  | afterCommand name => s!"after command '{name.str}'"
  | inAssignment name => s!"in variable assignment '{name.str} = ...'"
  | inHandler name => s!"in handler '{name.str}'"
  | inProtocol name => s!"in protocol '{name.str}'"
  | firstDefinition name => s!"first definition of '{name.str}'"
  | inCommand name => s!"in command '{name.str}'"
  | inFormat source => s!"in format string: \"{source.str}\""
  | inVariable name => s!"in variable {name.str}"
  | inStringVariable name => s!"in string variable '{name.str}'"
  | usedByProtocol name => s!"used by protocol '{name.str}'"
  | inInvalidFile name => s!"Protocol file '{name.str}' is invalid"
  | stated message => message.str

/-- A failure of the protocol's author, at its place as far as that is known. -/
structure Fault where
  cause : Cause
  line : Option Int := none
  file : Option Text := none
  notes : List (Option Int × Note) := []
  deriving DecidableEq, Repr

structure ReportEntry where
  line : Option Int
  file : Option Text
  message : String
  deriving DecidableEq, Repr

namespace Fault

/-- Fills in the parts of the place that are not known yet. -/
def locate (f : Fault) (line : Option Int) (file : Option Text) : Fault :=
  { f with line := f.line.or line, file := f.file.or file }

def addNote (f : Fault) (line : Option Int) (note : Note) : Fault :=
  { f with notes := f.notes ++ [(line, note)] }

def kind (f : Fault) : FaultKind := f.cause.kind

def message (f : Fault) : String := f.cause.message

/-- The message behind its place. An empty file name is no place. -/
def headline (f : Fault) : String :=
  let file := match f.file with
    | some (c :: cs) => [Text.str (c :: cs)]
    | some [] | none => []
  let line := match f.line with
    | some n => [s!"line {n}"]
    | none => []
  match file ++ line with
  | [] => f.message
  | parts => " ".intercalate parts ++ ": " ++ f.message

def text (f : Fault) : String :=
  f.notes.foldl (fun acc note => acc ++ "\n  " ++ note.2.message) f.headline

/-- What is sent to a report: the fault, then its notes. A note without a line takes the fault's. -/
def entries (f : Fault) : List ReportEntry :=
  ⟨f.line, f.file, f.message⟩ ::
    f.notes.map fun note => ⟨note.1.or f.line, f.file, note.2.message⟩

end Fault

/-- What the reader and the compiler take for granted, and do not find. -/
inductive Crash where
  | undecimalNumber
  | longNumber (digits : Text)
  | undecimalEscape
  /-- A byte value is to be compared where no number was read. -/
  | missingNumber
  | byteRange
  | operandRange
  | emptyWord
  | parameterRange
  /-- The stack has no room for another reference in braces. -/
  | deepNesting
  deriving DecidableEq, Repr

/-- How a computation over protocol text ends when it ends without a result. -/
inductive Failure where
  | fault (f : Fault)
  | crash (c : Crash)
  deriving DecidableEq, Repr

def Failure.mapFault (g : Fault → Fault) : Failure → Failure
  | .fault f => .fault (g f)
  | .crash c => .crash c

end DeviceProtocol
