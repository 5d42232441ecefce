import DeviceProtocol.Token
set_option autoImplicit false

/-!
Values inside double quotes. Text that is put between quotes keeps its escapes; a quote that no
backslash precedes gets one, and a backslash at the very end stands for itself.
-/
namespace DeviceProtocol

def escapeQuotes : Text → Text
  | [] => []
  | ['\\'] => ['\\', '\\']
  | '\\' :: c :: cs => '\\' :: c :: escapeQuotes cs
  | '"' :: cs => '\\' :: '"' :: escapeQuotes cs
  | c :: cs => c :: escapeQuotes cs

def quotedString (line : Int) (pending : Option Text) : List Token :=
  match pending with
  | some text => [⟨.string, text, line, some .double⟩]
  | none => []

/-- The tokens of a value inside quotes, `pending` being the text of the string under way. -/
def quotePieces (line : Int) (pending : Option Text) : List Token → List Token
  | [] => quotedString line pending
  | t :: ts =>
    if t.kind = .reference then
      quotedString line pending ++ ⟨.reference, t.text, t.line, some .double⟩ ::
        quotePieces line none ts
    else if t.isBlank || t.kind = .terminator || t.kind = .eof then quotePieces line pending ts
    else quotePieces line (some (pending.getD [] ++ escapeQuotes t.text)) ts

/-- A value as it stands inside quotes: strings give their content, words and special characters their
text, separators nothing. References stay references. Nothing at all is the empty string. -/
def quoteTokens (ts : List Token) (line : Int) : List Token :=
  match quotePieces line none ts with
  | [] => [⟨.string, [], line, some .double⟩]
  | quoted => quoted

end DeviceProtocol
