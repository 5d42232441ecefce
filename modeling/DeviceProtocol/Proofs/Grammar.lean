import DeviceProtocol.ProtocolFile
import DeviceProtocol.Text.Integer
set_option autoImplicit false

/-!
Protocol files by their grammar: what a file is made of, how it is written on one line, and what it holds. Names are
spelled in small letters. Neither the protocols that a name alone stands for nor references by name are part of it, so
that what a file holds can be read off its parts.
-/
namespace DeviceProtocol

namespace Grammar

def isSmallLetter (c : Char) : Bool := 'a' ≤ c && c ≤ 'z'

def isWordChar (c : Char) : Bool := isSmallLetter c || isDecimalDigit c || c == '_'

/-- The characters of strings without escapes and references. -/
def isPlainChar (c : Char) : Bool := c != '"' && c != '\\' && c != '$' && c != '\n'

/-- A name, by the characters that it may start with. -/
structure Name (first : Char → Bool) where
  text : Text
  chars : text.all isWordChar = true
  starts : text.head?.any first = true
  deriving DecidableEq

/-- Protocols, variables and commands have names that start with a letter. -/
abbrev Identifier := Name isSmallLetter

/-- The names of parameters may start with an underscore as well. -/
abbrev ParameterName := Name fun c => isSmallLetter c || c == '_'

/-- The name of a handler, which starts with any of its characters behind the at sign. -/
abbrev HandlerName := Name isWordChar

inductive Atom where
  | word (text : Text) (chars : text.all isWordChar = true) (spelled : text ≠ [])
  | string (text : Text) (chars : text.all isPlainChar = true)
  | reference (digit : Fin 10)
  deriving DecidableEq

structure Value where
  first : Atom
  others : List Atom
  deriving DecidableEq

structure Command where
  name : Identifier
  value : Value
  deriving DecidableEq

inductive Item where
  | assignment (name : Identifier) (value : Value)
  | handler (name : HandlerName) (commands : List Command)
  | command (c : Command)
  deriving DecidableEq

structure Definition where
  name : Identifier
  parameters : List ParameterName
  body : List Item
  few : parameters.length ≤ maxParameters
  distinct : (parameters.map Name.text).Nodup
  deriving DecidableEq

inductive Entry where
  | assignment (name : Identifier) (value : Value)
  | handler (name : HandlerName) (commands : List Command)
  | definition (d : Definition)
  deriving DecidableEq

def Entry.protocolName? : Entry → Option Text
  | definition d => some d.name.text
  | _ => none

structure File where
  entries : List Entry
  distinct : (entries.filterMap Entry.protocolName?).Nodup
  deriving DecidableEq

/-- How many blanks there are where there may be any number of them. -/
structure Layout where
  /-- Before and behind equals signs, braces, parentheses and commas. -/
  around : Nat
  /-- Before a semicolon. -/
  before : Nat
  /-- In front of a statement. -/
  between : Nat
  deriving DecidableEq, Repr

def blanks (n : Nat) : Text := List.replicate n ' '

def Atom.render : Atom → Text
  | word text _ _ => text
  | string text _ => '"' :: text ++ ['"']
  | reference digit => ['$', Nat.digitChar digit]

def Value.render (v : Value) : Text := v.first.render ++ v.others.flatMap fun a => ' ' :: a.render

namespace Layout

variable (l : Layout)

def sign (c : Char) : Text := blanks l.around ++ c :: blanks l.around

def assignment (name : Identifier) (value : Value) : Text :=
  name.text ++ l.sign '=' ++ value.render ++ blanks l.before ++ [';']

def command (c : Command) : Text := c.name.text ++ ' ' :: c.value.render ++ blanks l.before ++ [';']

def statements {α : Type} (render : α → Text) (xs : List α) : Text := xs.flatMap fun x => blanks l.between ++ render x

def block {α : Type} (render : α → Text) (xs : List α) : Text :=
  blanks l.around ++ '\x7b' :: l.statements render xs ++ blanks l.around ++ ['\x7d']

def handler (name : HandlerName) (commands : List Command) : Text :=
  '@' :: name.text ++ l.block l.command commands

def item : Item → Text
  | .assignment name value => l.assignment name value
  | .handler name commands => l.handler name commands
  | .command c => l.command c

def parameters : List ParameterName → Text
  | [] => []
  | first :: others =>
    l.sign '(' ++ first.text ++ (others.flatMap fun p => l.sign ',' ++ p.text) ++ blanks l.around ++ [')']

def entry : Entry → Text
  | .assignment name value => l.assignment name value
  | .handler name commands => l.handler name commands
  | .definition d => d.name.text ++ l.parameters d.parameters ++ l.block l.item d.body

def file (f : File) : Text := l.statements l.entry f.entries

example :
    let x : Identifier := ⟨['x'], by decide, by decide⟩
    let wait : Identifier := ⟨"wait".toList, by decide, by decide⟩
    let value : Value := ⟨.reference 1, [.string "ms".toList (by decide)]⟩
    let items : List Item := [.assignment x value, .handler ⟨['2'], by decide, by decide⟩ [⟨wait, value⟩]]
    let p : Definition := ⟨x, [⟨"_x".toList, by decide, by decide⟩], items, by decide, by decide⟩
    (⟨0, 1, 2⟩ : Layout).file ⟨[.definition p], by decide⟩ =
      "  x(_x)\x7b  x=$1 \"ms\" ;  @2\x7b  wait $1 \"ms\" ;\x7d\x7d".toList := by
  decide

end Layout

def Atom.token : Atom → Token
  | word text _ _ => ⟨.word, text, 1, none⟩
  | string text _ => ⟨.string, text, 1, some .double⟩
  | reference digit => ⟨.reference, [Nat.digitChar digit], 1, none⟩

def blank : Token := ⟨.special, [' '], 1, none⟩

def Value.tokens (v : Value) : List Token := v.first.token :: v.others.flatMap fun a => [blank, a.token]

/-- A command is stored as its name, its value and its end. -/
def Command.tokens (c : Command) : List Token :=
  ⟨.word, c.name.text, 1, none⟩ :: c.value.tokens ++ [⟨.terminator, [';'], 1, none⟩]

abbrev Assigned := Text × List Token

def Item.assigned : Item → List Assigned
  | assignment name value => [(name.text, value.tokens)]
  | handler name commands => [('@' :: name.text, commands.flatMap Command.tokens)]
  | command _ => []

def Item.commandTokens : Item → List Token
  | command c => c.tokens
  | _ => []

def Entry.assigned : Entry → List Assigned
  | assignment name value => [(name.text, value.tokens)]
  | handler name commands => [('@' :: name.text, commands.flatMap Command.tokens)]
  | definition _ => []

/-- Every name once, in the order of the first assignments, with the value of its last one. -/
def bindings (assigned : List Assigned) : List Binding :=
  (assigned.map Prod.fst).eraseDups.map fun name =>
    { name := name, value := (assigned.reverse.lookup name).getD [], line := 1 }

/-- A protocol that has these assignments before it. Its own ones come behind them. -/
def Definition.protocol (d : Definition) (file : Option Text) (before : List Assigned) : Protocol where
  file := file
  name := d.name.text
  line := 1
  commands := { name := [], value := d.body.flatMap Item.commandTokens, line := 1 }
  bindings := bindings (before ++ d.body.flatMap Item.assigned)
  self := some d.name.text
  parameters := d.parameters.map Name.text

/-- The protocols of a file of which some assignments have been made. -/
def protocols (file : Option Text) (before : List Assigned) : List Entry → List Protocol
  | [] => []
  | .definition d :: entries => d.protocol file before :: protocols file before entries
  | entry :: entries => protocols file (before ++ entry.assigned) entries

def File.contents (f : File) (file : Option Text) : ProtocolFile where
  file := file
  globals := { file := file, bindings := bindings (f.entries.flatMap Entry.assigned) }
  protocols := protocols file [] f.entries
  valid := true

end Grammar
end DeviceProtocol
