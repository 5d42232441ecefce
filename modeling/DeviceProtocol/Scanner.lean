import DeviceProtocol.Fault
import DeviceProtocol.Text.Letter
import DeviceProtocol.Text.Case
set_option autoImplicit false

/-!
The scanner holds the characters of a protocol file that are still unread. A character that is put back
is simply read again, so what is unread is one list and every reader shortens it.

A run of white space and comments reads as one blank. A reference inside a quoted string ends the
string's token while the quote stays open: the next token is the reference, then the string goes on.
-/
namespace DeviceProtocol

/-- The characters that end a word: around definitions, in values, and between the braces of a
reference. -/
inductive Specials where
  | structural
  | value
  | braced
  deriving DecidableEq, Repr

namespace Specials

def chars : Specials → Text
  | structural => " ,;\x7b\x7d=()$'\"".toList
  | value => " ,;\x7b\x7d=()$'\"+-*/".toList
  | braced => "\x7b\x7d=;".toList

def contains (set : Specials) (c : Char) : Bool := set.chars.contains c

end Specials

structure Scanner where
  rest : Text
  line : Int := 1
  quote : Option Quote := none
  /-- A dollar sign after a backslash was put back and starts a reference whatever follows it. -/
  escapedDollar : Bool := false
  deriving DecidableEq, Repr

namespace Scanner

abbrev Result (α : Type) := EStateM.Result Failure Scanner α

def fail {α : Type} (s : Scanner) (cause : Cause) : Result α :=
  .error (.fault { cause := cause, line := some s.line }) s

def ofSource (source : Text) : Scanner := { rest := source }

def atEnd (s : Scanner) : Bool := s.rest.isEmpty

def readRaw (s : Scanner) : Option Char × Scanner :=
  match s.rest with
  | [] => (none, s)
  | c :: cs => (some c, { s with rest := cs, line := if c = '\n' then s.line + 1 else s.line })

def unread (s : Scanner) (c : Char) : Scanner :=
  { s with rest := c :: s.rest, line := if c = '\n' then s.line - 1 else s.line }

def peek (s : Scanner) : Option Char := s.rest.head?

/-- White space, or the start of a comment. -/
def opensGap (c : Char) : Bool := isSpace c || c == '#'

/-- What is left behind a run of white space and comments, and its line. Inside a comment everything
up to the end of the line is skipped. -/
def skipGap : Bool → Text → Int → Text × Int
  | _, [], line => ([], line)
  | true, c :: cs, line => if c = '\n' then skipGap false cs (line + 1) else skipGap true cs line
  | false, c :: cs, line =>
    if c = '#' then skipGap true cs line
    else if isSpace c then skipGap false cs (if c = '\n' then line + 1 else line)
    else (c :: cs, line)

def afterGap (s : Scanner) : Scanner :=
  { s with rest := (skipGap false s.rest s.line).1, line := (skipGap false s.rest s.line).2 }

/-- The next character, a run of white space and comments counting as one blank. -/
def readChar (s : Scanner) : Option Char × Scanner :=
  match s.rest with
  | [] => (none, s)
  | c :: _ => if opensGap c then (some ' ', s.afterGap) else s.readRaw

def readNonblank (s : Scanner) : Option Char × Scanner := s.afterGap.readRaw

theorem skipGap_length (comment : Bool) (cs : Text) (line : Int) :
    (skipGap comment cs line).1.length ≤ cs.length := by
  induction cs generalizing comment line with
  | nil => cases comment <;> simp [skipGap]
  | cons c cs ih =>
    cases comment with
    | true =>
      simp only [skipGap, List.length_cons]
      split
      · exact Nat.le_succ_of_le (ih _ _)
      · exact Nat.le_succ_of_le (ih _ _)
    | false =>
      simp only [skipGap]
      split
      · exact Nat.le_succ_of_le (ih _ _)
      · split
        · exact Nat.le_succ_of_le (ih _ _)
        · exact Nat.le_refl _

theorem afterGap_length (s : Scanner) : s.afterGap.rest.length ≤ s.rest.length :=
  skipGap_length false s.rest s.line

theorem afterGap_length_of_opensGap (s : Scanner) (c : Char) (cs : Text) (hs : s.rest = c :: cs)
    (hc : opensGap c = true) : s.afterGap.rest.length < s.rest.length := by
  simp only [opensGap, Bool.or_eq_true, beq_iff_eq] at hc
  simp only [afterGap, hs, List.length_cons]
  by_cases h : c = '#'
  · simp only [skipGap, h, if_true]
    exact Nat.lt_succ_of_le (skipGap_length true cs s.line)
  · have hsp : isSpace c = true := hc.resolve_right h
    simp only [skipGap, h, if_false, hsp, if_true]
    exact Nat.lt_succ_of_le (skipGap_length false cs _)

theorem readRaw_length (s : Scanner) (c : Char) (s' : Scanner) (h : s.readRaw = (some c, s')) :
    s.rest.length = s'.rest.length + 1 := by
  unfold readRaw at h
  split at h
  · simp at h
  · next d ds hr =>
    have hs := (Prod.mk.inj h).2
    simp [← hs, hr]

theorem readChar_length (s : Scanner) (c : Char) (s' : Scanner) (h : s.readChar = (some c, s')) :
    s'.rest.length < s.rest.length := by
  unfold readChar at h
  split at h
  · simp at h
  · next d ds hr =>
    split at h
    · next hg =>
      rw [← (Prod.mk.inj h).2]
      exact afterGap_length_of_opensGap s d ds hr hg
    · have := readRaw_length s c s' h
      omega

def readWord (set : Specials) (s : Scanner) : Text × Scanner :=
  match _h : s.readChar with
  | (none, s') => ([], s')
  | (some c, s') =>
    if set.contains c then ([], s'.unread c)
    else
      let tail := readWord set s'
      (lowerChar c ++ tail.1, tail.2)
termination_by s.rest.length
decreasing_by exact readChar_length s c s' _h

/-- A dollar sign inside quotes starts a reference if this follows it. -/
def startsReference (after : Text) : Bool :=
  match after with
  | [] => false
  | c :: _ => isAlphanumeric c || c == '\x7b' || c == '_'

/-- How a piece of a quoted string ends. -/
inductive StringEnd where
  | closed
  | reference
  | escapedDollar
  | unterminated
  | backslash
  deriving DecidableEq, Repr

/-- A piece of a quoted string: its text, how it ends, and what is left behind it with its line. -/
structure StringPiece where
  text : Text
  ending : StringEnd
  rest : Text
  line : Int

def StringPiece.push (p : StringPiece) (cs : Text) : StringPiece := { p with text := cs ++ p.text }

def readPiece (quote : Quote) (line : Int) : Text → StringPiece
  | [] => ⟨[], .unterminated, [], line⟩
  | c :: cs =>
    if c = '\n' then ⟨[], .unterminated, cs, line + 1⟩
    else if c = quote.char then ⟨[], .closed, cs, line⟩
    else if c = '\\' then
      match cs with
      | [] => ⟨[], .backslash, [], line⟩
      | d :: ds =>
        if d = '$' then ⟨[], .escapedDollar, d :: ds, line⟩
        else if d = '\n' then ⟨[], .backslash, ds, line + 1⟩
        else (readPiece quote line ds).push ['\\', d]
    else if c = '$' && startsReference cs then ⟨[], .reference, c :: cs, line⟩
    else (readPiece quote line cs).push [c]

def readString (quote : Quote) (s : Scanner) : Result Token :=
  let piece := readPiece quote s.line s.rest
  let token : Token := ⟨.string, piece.text, s.line, some quote⟩
  let s' := { s with rest := piece.rest, line := piece.line, quote := some quote }
  match piece.ending with
  | .closed => .ok token { s' with quote := none }
  | .reference => .ok token s'
  | .escapedDollar => .ok token { s' with escapedDollar := true }
  | .unterminated => s'.fail (.unterminatedString quote piece.text)
  | .backslash => s'.fail (.backslashAtLineEnd quote piece.text)

def isNameChar (c : Char) : Bool := isAlphanumeric c || c == '_'

/-- The reference behind a dollar sign, if its name is not in braces: a digit, inside quotes an
identifier, elsewhere a word. -/
def readPlainReference (set : Specials) (line : Int) (s : Scanner) : Result Token :=
  match s.rest with
  | [] => s.fail .endAfterDollar
  | c :: cs =>
    let s' := s.readRaw.2
    if isDigit c then .ok ⟨.reference, [c], line, s.quote.map fun _ => .double⟩ s'
    else if s.quote.isSome then
      let name := (c :: cs).takeWhile isNameChar
      if name.isEmpty then s.fail (.unexpectedAfterDollar c)
      else
        .ok ⟨.reference, Text.fold name, line, some .double⟩
          { s with rest := (c :: cs).dropWhile isNameChar }
    else if set.contains c || isSpace c then s'.fail (.unexpectedAfterDollar c)
    else
      let tail := readWord set s'
      .ok ⟨.reference, lowerChar c ++ tail.1, line, none⟩ tail.2

/-- The end of a reference in braces, of which the first token has been read. -/
def closeReference (quote : Option Quote) (line : Int) (name : Token) (s : Scanner) :
    Result Token :=
  if name.kind ≠ .word then s.fail (.referenceNameExpected name.text)
  else match s.readRaw with
    | (some '\x7d', s') =>
      .ok ⟨.reference, name.text.strip, line, quote.map fun _ => .double⟩ { s' with quote := quote }
    | (c, s') => s'.fail (.referenceUnclosed c name.text)

def readFirst (s : Scanner) : Option Char × Scanner :=
  if s.quote.isSome then s.readRaw else s.readChar

theorem readFirst_length (s : Scanner) (c : Char) (s' : Scanner)
    (h : s.readFirst = (some c, s')) : s'.rest.length < s.rest.length := by
  unfold readFirst at h
  split at h
  · have := readRaw_length s c s' h
    omega
  · exact readChar_length s c s' h

/-- How many references in braces may be open at once. Each takes a piece of the stack. -/
def maxNesting : Nat := 490

/-- The braces that references open one right inside the other at the start of a text. -/
def openBraces : Text → Nat
  | '\x7b' :: '$' :: cs => openBraces cs + 1
  | '\x7b' :: _ => 1
  | _ => 0

def closeBraces (quote : Option Quote) (line : Int) : Result Token → Result Token
  | .ok name s => closeReference quote line name s
  | .error e s => .error e s

def readToken (set : Specials) (eofAllowed : Bool) (s : Scanner) : Result Token :=
  match _h : s.readFirst with
  | (none, s') =>
    match s.quote with
    | some quote => readString quote s
    | none => if eofAllowed then .ok ⟨.eof, [], s'.line, none⟩ s' else s'.fail .endInsideBlock
  | (some c, s') =>
    if c = '$' && (s.quote.isNone || s.escapedDollar || startsReference s'.rest) then
      match _hr : s'.rest with
      | '\x7b' :: cs =>
        if maxNesting < openBraces s'.rest then .error (.crash .deepNesting) s'
        else
          closeBraces s.quote s'.line
            (readToken .braced false { s' with rest := cs, quote := none, escapedDollar := false })
      | _ => readPlainReference set s'.line { s' with escapedDollar := false }
    else match s.quote, Quote.ofChar? c with
      | some quote, _ => readString quote s
      | none, some quote => readString quote s'
      | none, none =>
        if set.contains c then .ok ⟨.special, [c], s'.line, none⟩ s'
        else
          let tail := readWord set s'
          .ok ⟨.word, lowerChar c ++ tail.1, s'.line, none⟩ tail.2
termination_by s.rest.length
decreasing_by
  have := readFirst_length s c s' _h
  simp only [_hr, List.length_cons] at this
  omega

end Scanner
end DeviceProtocol
