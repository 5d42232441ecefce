import DeviceProtocol.Scanner.Tokens
import DeviceProtocol.Proofs.TextAppended
set_option autoImplicit false

namespace DeviceProtocol

namespace Token

def later (n : Int) (t : Token) : Token := { t with line := t.line + n }

@[simp] theorem later_kind (n : Int) (t : Token) : (t.later n).kind = t.kind := rfl

@[simp] theorem later_text (n : Int) (t : Token) : (t.later n).text = t.text := rfl

end Token

namespace WrittenCommand

def later (n : Int) (c : WrittenCommand) : WrittenCommand :=
  { c with line := c.line + n, arguments := c.arguments.map (Token.later n), endLine := c.endLine + n }

end WrittenCommand

def BodyItem.later (n : Int) : BodyItem → BodyItem
  | assignment name line value => assignment name (line + n) (value.map (Token.later n))
  | handler name line commands => handler name (line + n) (commands.map (WrittenCommand.later n))
  | command c => command (c.later n)

def Fault.later (n : Int) (f : Fault) : Fault :=
  { f with line := f.line.map (· + n), notes := f.notes.map fun note => (note.1.map (· + n), note.2) }

def Failure.later (n : Int) (e : Failure) : Failure := e.mapFault (Fault.later n)

namespace Scanner

def Head.later (n : Int) : Head → Head
  | .named name line after => .named name (line + n) after
  | .endOfFile => .endOfFile
  | .close => .close

def later (n : Int) (s : Scanner) : Scanner := { s with line := s.line + n }

def laterResult {α : Type} (n : Int) (g : α → α) : Result α → Result α
  | .ok a s => .ok (g a) (s.later n)
  | .error e s => .error (e.later n) (s.later n)

variable (n : Int)

@[simp] theorem later_rest (s : Scanner) : (s.later n).rest = s.rest := rfl

@[simp] theorem later_line (s : Scanner) : (s.later n).line = s.line + n := rfl

@[simp] theorem later_quote (s : Scanner) : (s.later n).quote = s.quote := rfl

@[simp] theorem later_escapedDollar (s : Scanner) : (s.later n).escapedDollar = s.escapedDollar := rfl

theorem fail_later {α : Type} (g : α → α) (s : Scanner) (cause : Cause) :
    (s.later n).fail cause = laterResult n g (s.fail cause) := rfl

theorem refuse_later {α : Type} (g : α → α) (s : Scanner) (t : Token) (cause : Cause) :
    (s.later n).refuse (t.later n) cause = laterResult n g (s.refuse t cause) := by
  rw [refuse.eq_def s]
  split
  · next empty => exact if_pos empty
  · next some => exact if_neg some

theorem skipGap_later (comment : Bool) (cs : Text) (line : Int) :
    skipGap comment cs (line + n) = ((skipGap comment cs line).1, (skipGap comment cs line).2 + n) := by
  induction cs generalizing comment line with
  | nil => cases comment <;> rfl
  | cons c cs ih =>
    cases comment with
    | true =>
      have next : line + n + 1 = line + 1 + n := by omega
      by_cases newline : c = '\n'
      · simp only [skipGap, newline, if_true, next, ih]
      · simp only [skipGap, newline, if_false, ih]
    | false =>
      by_cases comment : c = '#'
      · simp only [skipGap, comment, if_true, ih]
      · by_cases space : isSpace c = true
        · have line' : (if c = '\n' then line + n + 1 else line + n) = (if c = '\n' then line + 1 else line) + n := by
            split <;> omega
          simp only [skipGap, comment, space, if_true, if_false, line', ih]
        · simp only [skipGap, comment, space, if_false, Bool.false_eq_true]

theorem afterGap_later (s : Scanner) : (s.later n).afterGap = s.afterGap.later n := by
  simp [afterGap, later, skipGap_later]

theorem readRaw_later (s : Scanner) : (s.later n).readRaw = (s.readRaw.1, s.readRaw.2.later n) := by
  cases hs : s.rest with
  | nil => simp [readRaw, later, hs]
  | cons c cs =>
    have next : s.line + n + 1 = s.line + 1 + n := by omega
    by_cases newline : c = '\n' <;> simp [readRaw, later, hs, newline, next]

theorem unread_later (s : Scanner) (c : Char) : (s.later n).unread c = (s.unread c).later n := by
  have back : s.line + n - 1 = s.line - 1 + n := by omega
  by_cases newline : c = '\n' <;> simp [unread, later, newline, back]

theorem unread?_later (s : Scanner) (c : Option Char) : (s.later n).unread? c = (s.unread? c).later n := by
  cases c with
  | none => rfl
  | some c => exact unread_later n s c

theorem readChar_later (s : Scanner) : (s.later n).readChar = (s.readChar.1, s.readChar.2.later n) := by
  cases hs : s.rest with
  | nil => simp [readChar, hs]
  | cons c cs =>
    by_cases gap : opensGap c = true
    · simp [readChar, hs, gap, afterGap_later]
    · simp [readChar, hs, gap, readRaw_later]

theorem readFirst_later (s : Scanner) : (s.later n).readFirst = (s.readFirst.1, s.readFirst.2.later n) := by
  by_cases inside : s.quote.isSome = true
  · simp [readFirst, inside, readRaw_later]
  · simp [readFirst, inside, readChar_later]

theorem readWord_later (set : Specials) (s : Scanner) :
    readWord set (s.later n) = ((readWord set s).1, (readWord set s).2.later n) := by
  fun_induction readWord set s with
  | case1 s s' char =>
    have none := rest_of_readChar_none s s' char
    simp only [readChar, none] at char
    cases char
    exact readWord_nil set (s.later n) none
  | case2 s c s' char special =>
    have char' : (s.later n).readChar = (some c, s'.later n) := by rw [readChar_later, char]
    rw [readWord_of_char set _ _ c char', if_pos special, unread_later]
  | case3 s c s' char special tail ih =>
    have char' : (s.later n).readChar = (some c, s'.later n) := by rw [readChar_later, char]
    rw [readWord_of_char set _ _ c char', if_neg special, ih]

theorem readPiece_later (quote : Quote) (line : Int) (cs : Text) :
    readPiece quote (line + n) cs = { readPiece quote line cs with line := (readPiece quote line cs).line + n } := by
  have next : line + n + 1 = line + 1 + n := by omega
  induction cs using readPiece_induction quote line with
  | nil piece => rw [piece, readPiece]
  | newline cs piece => simp [piece, readPiece_cons, next]
  | close cs newline piece => simp [piece, readPiece_cons, newline]
  | last piece =>
    cases quote <;> rw [piece] <;> rfl
  | dollar ds close piece => simp [piece, readPiece_cons, close]
  | broken ds piece =>
    cases quote <;> simp [piece, readPiece_cons, Quote.char, next]
  | escape d ds close dollar newline piece ih =>
    rw [piece, readPiece_cons]
    simp only [close, dollar, newline, if_false, if_true, show ('\\' = '\n') = False by decide, ih]
    rfl
  | reference c cs newline close backslash reference piece =>
    rw [piece, readPiece_cons, if_neg newline, if_neg close, if_neg backslash, if_pos reference]
  | plain c cs newline close backslash reference piece ih =>
    rw [piece, readPiece_cons, if_neg newline, if_neg close, if_neg backslash, if_neg reference, ih]
    rfl

theorem readString_later (quote : Quote) (s : Scanner) :
    readString quote (s.later n) = laterResult n (Token.later n) (readString quote s) := by
  simp only [readString, later_line, later_rest, readPiece_later]
  cases (readPiece quote s.line s.rest).ending <;> rfl

theorem readPlainReference_later (set : Specials) (line : Int) (s : Scanner) :
    readPlainReference set (line + n) (s.later n) = laterResult n (Token.later n) (readPlainReference set line s) := by
  cases hs : s.rest with
  | nil => simp only [readPlainReference, later_rest, hs, fail_later n (Token.later n)]
  | cons c cs =>
    simp only [readPlainReference, later_rest, hs, later_quote, readRaw_later, readWord_later]
    by_cases digit : isDigit c = true
    · simp only [digit, if_true]
      rfl
    · by_cases quoted : s.quote.isSome = true
      · by_cases name : ((c :: cs).takeWhile isNameChar).isEmpty = true
        · simp only [digit, quoted, name, if_true, if_false, Bool.false_eq_true, fail_later n (Token.later n)]
        · simp only [digit, quoted, name, if_true, if_false, Bool.false_eq_true]
          rfl
      · by_cases stops : (set.contains c || isSpace c) = true
        · simp only [digit, quoted, stops, if_true, if_false, Bool.false_eq_true, fail_later n (Token.later n)]
        · simp only [digit, quoted, stops, if_false, Bool.false_eq_true]
          rfl

theorem closeReference_later (quote : Option Quote) (line : Int) (name : Token) (s : Scanner) :
    closeReference quote (line + n) (name.later n) (s.later n) =
      laterResult n (Token.later n) (closeReference quote line name s) := by
  rw [closeReference, closeReference, Token.later_kind, Token.later_text, readRaw_later]
  by_cases word : name.kind = .word
  · rw [if_neg (not_not.mpr word), if_neg (not_not.mpr word)]
    obtain ⟨c, s'⟩ := s.readRaw
    by_cases close : c = some '\x7d'
    · subst close
      rfl
    · split
      · simp_all
      · next same =>
        cases same
        rfl
  · rw [if_pos word, if_pos word, fail_later n (Token.later n)]

theorem closeBraces_later (quote : Option Quote) (line : Int) (r : Result Token) :
    closeBraces quote (line + n) (laterResult n (Token.later n) r) =
      laterResult n (Token.later n) (closeBraces quote line r) := by
  cases r with
  | ok name s => exact closeReference_later n quote line name s
  | error e s => rfl

theorem readToken_later (set : Specials) (eofAllowed : Bool) (s : Scanner) :
    readToken set eofAllowed (s.later n) = laterResult n (Token.later n) (readToken set eofAllowed s) := by
  have next (s s₁ : Scanner) (c : Char) (first : s.readFirst = (some c, s₁)) :
      (s.later n).readFirst = (some c, s₁.later n) := by
    rw [readFirst_later, first]
  induction set, eofAllowed, s using readToken_induction with
  | inside set eofAllowed s quote inside plain token =>
    rw [token, ← readString_later]
    exact readToken_of_inside set eofAllowed (s.later n) quote inside plain
  | opening set eofAllowed s c s₁ quote outside first opens token =>
    rw [token, ← readString_later]
    exact readToken_of_quote set eofAllowed (s.later n) c (s₁.later n) quote outside (next s s₁ c first) opens
  | ended set s outside rest token =>
    rw [token]
    exact readToken_of_end set true (s.later n) rest outside
  | cut set s outside rest token =>
    rw [token]
    exact readToken_of_end set false (s.later n) rest outside
  | deep set eofAllowed s cs rest tooDeep token =>
    rw [token]
    exact (readToken_of_braces set eofAllowed (s.later n) cs rest).trans (if_pos tooDeep)
  | braced set eofAllowed s cs rest few token ih =>
    rw [token, ← closeBraces_later, ← ih]
    exact (readToken_of_braces set eofAllowed (s.later n) cs rest).trans (if_neg (Nat.not_lt_of_le few))
  | plain set eofAllowed s cs rest unbraced starts token =>
    rw [token, ← readPlainReference_later]
    exact readToken_of_dollar set eofAllowed (s.later n) cs rest unbraced starts
  | special set eofAllowed s c s₁ outside first other unquoted special token =>
    rw [token]
    exact readToken_of_special set eofAllowed (s.later n) c (s₁.later n) outside (next s s₁ c first) other unquoted special
  | word set eofAllowed s c s₁ outside first other unquoted plain token =>
    rw [token, readToken_of_word set eofAllowed (s.later n) c (s₁.later n) outside (next s s₁ c first) other unquoted plain,
      readWord_later]
    rfl

theorem tokens_of_token (s s₁ : Scanner) (t : Token) (token : readToken .value true s = .ok t s₁) :
    s.tokens =
      if t.kind = .eof then .ok [t] s₁
      else match s₁.tokens with
        | .error e s₂ => .error e s₂
        | .ok ts s₂ => .ok (t :: ts) s₂ := by
  rw [tokens]
  split <;> rename_i h <;> cases token.symm.trans h
  rfl

theorem tokens_later (s : Scanner) : (s.later n).tokens = laterResult n (List.map (Token.later n)) s.tokens := by
  have next (s s₁ : Scanner) (t : Token) (token : readToken .value true s = .ok t s₁) :
      readToken .value true (s.later n) = .ok (t.later n) (s₁.later n) := by
    rw [readToken_later, token]
    rfl
  fun_induction tokens s with
  | case1 s e s₁ token =>
    have token' : readToken .value true (s.later n) = .error (e.later n) (s₁.later n) := by
      rw [readToken_later, token]
      rfl
    rw [tokens]
    split <;> rename_i h <;> cases token'.symm.trans h
    rfl
  | case2 s t s₁ token eof =>
    rw [tokens_of_token _ _ _ (next s s₁ t token), Token.later_kind, if_pos eof]
    rfl
  | case3 s t s₁ token eof e s₂ rest ih =>
    rw [tokens_of_token _ _ _ (next s s₁ t token), Token.later_kind, if_neg eof, ih, rest]
    rfl
  | case4 s t s₁ token eof ts s₂ rest ih =>
    rw [tokens_of_token _ _ _ (next s s₁ t token), Token.later_kind, if_neg eof, ih, rest]
    rfl

theorem readNonblank_later (s : Scanner) :
    (s.later n).readNonblank = (s.readNonblank.1, s.readNonblank.2.later n) := by
  rw [readNonblank, afterGap_later, readRaw_later]
  rfl

theorem readHead_later (eofAllowed : Bool) (s : Scanner) :
    readHead eofAllowed (s.later n) = laterResult n (Head.later n) (readHead eofAllowed s) := by
  have next (s s₁ : Scanner) (t : Token) (token : readToken .structural eofAllowed s = .ok t s₁) :=
    readHead_of_token eofAllowed (s.later n) (s₁.later n) (t.later n)
      ((readToken_later n .structural eofAllowed s).trans (by rw [token]; rfl))
  fun_induction readHead eofAllowed s with
  | case1 s e s₁ token =>
    have token' : readToken .structural eofAllowed (s.later n) = .error (e.later n) (s₁.later n) := by
      rw [readToken_later, token]
      rfl
    rw [readHead]
    split <;> rename_i h <;> cases token'.symm.trans h
    rfl
  | case2 s t s₁ token eof => exact (next s s₁ t token).trans (if_pos eof)
  | case3 s t s₁ token eof blank ih => exact (next s s₁ t token).trans ((if_neg eof).trans ((if_pos blank).trans ih))
  | case4 s t s₁ token eof blank close =>
    exact (next s s₁ t token).trans ((if_neg eof).trans ((if_neg blank).trans (if_pos close)))
  | case5 s t s₁ token eof blank close opens =>
    exact (next s s₁ t token).trans ((if_neg eof).trans ((if_neg blank).trans ((if_neg close).trans (if_pos opens))))
  | case6 s t s₁ token eof blank close opens assigns =>
    exact (next s s₁ t token).trans ((if_neg eof).trans ((if_neg blank).trans ((if_neg close).trans
      ((if_neg opens).trans (if_pos assigns)))))
  | case7 s t s₁ token eof blank close opens assigns word =>
    refine (next s s₁ t token).trans ((if_neg eof).trans ((if_neg blank).trans ((if_neg close).trans
      ((if_neg opens).trans ((if_neg assigns).trans ((if_pos word).trans ?_))))))
    rw [readNonblank_later]
    rfl
  | case8 s t s₁ token eof blank close opens assigns word =>
    exact (next s s₁ t token).trans ((if_neg eof).trans ((if_neg blank).trans ((if_neg close).trans
      ((if_neg opens).trans ((if_neg assigns).trans ((if_neg word).trans (refuse_later n _ s₁ t _)))))))

theorem readRawValue_later (s : Scanner) :
    readRawValue (s.later n) = ((readRawValue s).1.map (Token.later n), laterResult n id (readRawValue s).2) := by
  have next (s s₁ : Scanner) (t : Token) (token : readToken .value false s = .ok t s₁) :=
    readRawValue_of_token (s.later n) (s₁.later n) (t.later n)
      ((readToken_later n .value false s).trans (by rw [token]; rfl))
  fun_induction readRawValue s with
  | case1 s e s₁ token =>
    have token' : readToken .value false (s.later n) = .error (e.later n) (s₁.later n) := by
      rw [readToken_later, token]
      rfl
    rw [readRawValue]
    split <;> rename_i h <;> cases token'.symm.trans h
    rfl
  | case2 s t s₁ token other => exact (next s s₁ t token).trans (if_pos other)
  | case3 s t s₁ token other ends => exact (next s s₁ t token).trans ((if_neg other).trans (if_pos ends))
  | case4 s t s₁ token other ends close =>
    refine (next s s₁ t token).trans ((if_neg other).trans ((if_neg ends).trans ((if_pos close).trans ?_)))
    rw [unread_later]
    rfl
  | case5 s t s₁ token other ends close ts ending rest ih =>
    refine (next s s₁ t token).trans ((if_neg other).trans ((if_neg ends).trans ((if_neg close).trans ?_)))
    rw [ih, rest]
    rfl

theorem dropTrailingBlanks_later (ts : List Token) :
    dropTrailingBlanks (ts.map (Token.later n)) = (dropTrailingBlanks ts).map (Token.later n) := by
  rw [dropTrailingBlanks, dropTrailingBlanks, ← List.map_reverse, List.dropWhile_map, List.map_reverse]
  rfl

theorem readLazyValue_later (s : Scanner) :
    readLazyValue (s.later n) = laterResult n (List.map (Token.later n)) (readLazyValue s) := by
  rw [readLazyValue, readLazyValue, readRawValue_later]
  obtain ⟨ts, ending⟩ := readRawValue s
  cases ending with
  | error e s' => rfl
  | ok u s' =>
    have front : (ts.map (Token.later n)).dropWhile Token.isBlank = (ts.dropWhile Token.isBlank).map (Token.later n) :=
      List.dropWhile_map ..
    simp only [laterResult, id_eq, front, dropTrailingBlanks_later]

theorem CommandAt.later {s s' : Scanner} {c : WrittenCommand} (h : CommandAt s c s') :
    CommandAt (s.later n) (c.later n) (s'.later n) := by
  cases h with
  | intro s₁ _ name line after arguments head assigns opens plain value =>
    refine .intro (s.later n) (s₁.later n) (s'.later n) name (line + n) after (arguments.map (Token.later n)) ?_ assigns
      opens plain ?_
    · rw [readHead_later, head]
      rfl
    · rw [unread?_later, readLazyValue_later, value]
      rfl

theorem HandlerAt.later {s s' : Scanner} {cs : List WrittenCommand} (h : HandlerAt s cs s') :
    HandlerAt (s.later n) (cs.map (WrittenCommand.later n)) (s'.later n) := by
  induction h with
  | close s s' head =>
    refine .close _ _ ?_
    rw [readHead_later, head]
    rfl
  | command s s₁ s' c cs first rest ih => exact .command _ _ _ _ _ (first.later n) ih

end Scanner
end DeviceProtocol
