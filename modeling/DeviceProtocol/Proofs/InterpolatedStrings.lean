import DeviceProtocol.Proofs.EscapedQuotes
import DeviceProtocol.Proofs.WrittenFiles
set_option autoImplicit false

namespace DeviceProtocol

namespace Interpolation

/-- A piece of a string between double quotes: guarded text on one line, without dollar signs. -/
structure Piece where
  text : Text
  guarded : text.Guarded
  newline : '\n' ∉ text
  dollar : '$' ∉ text

/-- A reference between braces, and the piece behind it. -/
structure Insertion where
  name : Text
  spelled : name ≠ []
  word : ∀ c ∈ name, Grammar.isWordChar c = true
  piece : Piece

def Piece.token (p : Piece) : Token := ⟨.string, p.text, 1, some .double⟩

namespace Insertion

def source (i : Insertion) : Text := '$' :: '\x7b' :: i.name ++ '\x7d' :: i.piece.text

def sources (is : List Insertion) : Text := is.flatMap source ++ ['"']

theorem sources_cons (i : Insertion) (is : List Insertion) :
    sources (i :: is) = '$' :: '\x7b' :: (i.name ++ '\x7d' :: (i.piece.text ++ sources is)) := by
  simp [sources, source]

def reference (i : Insertion) : Token := ⟨.reference, i.name, 1, some .double⟩

/-- The tokens of insertions. An empty piece before another reference is left out. -/
def tokens : List Insertion → List Token
  | [] => []
  | i :: is => i.reference :: (if i.piece.text = [] ∧ is ≠ [] then [] else [i.piece.token]) ++ tokens is

end Insertion
end Interpolation

structure Interpolation where
  first : Interpolation.Piece
  insertions : List Interpolation.Insertion

namespace Interpolation

def source (x : Interpolation) : Text := '"' :: x.first.text ++ Insertion.sources x.insertions

def tokens (x : Interpolation) : List Token :=
  x.first.token :: Insertion.tokens x.insertions ++ [⟨.eof, [], 1, none⟩]

end Interpolation

theorem Text.strip_eq_self (t : Text) (h : ∀ c ∈ t, isSpace c = false) : t.strip = t := by
  have left : t.stripLeft = t := by
    cases t with
    | nil => rfl
    | cons c cs => simp [stripLeft, h c]
  have right : t.reverse.dropWhile isSpace = t.reverse := by
    cases r : t.reverse with
    | nil => rfl
    | cons c cs =>
      have last : c ∈ t := List.mem_reverse.mp (by simp [r])
      simp [h c last]
  rw [strip, left, stripRight, right, List.reverse_reverse]

theorem Grammar.Bare.braced {c : Char} (bare : Bare c) : Specials.braced.contains c = false := by
  have table : Specials.braced.chars.all signs.contains = true := by decide
  cases special : Specials.braced.contains c with
  | false => rfl
  | true =>
    have sign := List.all_eq_true.mp table c (by simpa [Specials.contains] using special)
    exact absurd (by simpa using sign) bare.not_mem_signs

namespace Scanner

open Grammar Interpolation

def inside (rest : Text) : Scanner := { rest := rest, quote := some .double }

/-- Behind a piece: between the quotes while insertions follow, and at the end of the source behind the last one. -/
def behindPiece : List Insertion → Scanner
  | [] => ofSource []
  | i :: is => inside (Insertion.sources (i :: is))

theorem readToken_name (i : Insertion) (rest : Text) :
    readToken .braced false (ofSource (i.name ++ '\x7d' :: rest)) =
      .ok ⟨.word, i.name, 1, none⟩ (ofSource ('\x7d' :: rest)) := by
  have bare : ∀ c ∈ i.name, Bare c := fun c hc => bare_of_isWordChar c (i.word c hc)
  have stop : readWord .braced (ofSource ('\x7d' :: rest)) = ([], ofSource ('\x7d' :: rest)) := by
    rw [readWord_of_char _ _ _ _ (readChar_solid rest '\x7d' (by decide)), if_pos (by decide),
      unread_solid rest '\x7d' (by decide)]
  rw [readToken_append _ .braced false i.name i.spelled bare fun c hc => (bare c hc).braced, stop]
  simp

theorem readToken_insertion (i : Insertion) (set : Specials) (eofAllowed : Bool) (rest : Text) :
    readToken set eofAllowed (inside ('$' :: '\x7b' :: (i.name ++ '\x7d' :: rest))) = .ok i.reference (inside rest) := by
  have solid : ∀ c ∈ i.name, isSpace c = false := by
    intro c hc
    have := (bare_of_isWordChar c (i.word c hc)).solid
    simp only [opensGap, Bool.or_eq_false_iff] at this
    exact this.1
  have shallow : openBraces ('\x7b' :: (i.name ++ '\x7d' :: rest)) = 1 := by
    obtain ⟨c, cs, start⟩ := List.exists_cons_of_ne_nil i.spelled
    have dollar : c ≠ '$' := by
      rintro rfl
      cases i.word '$' (by simp [start])
    simp [start, openBraces_cons_cons, dollar]
  have name := readToken_name i rest
  rw [readToken_of_braces set eofAllowed _ (i.name ++ '\x7d' :: rest) rfl, shallow, if_neg (by decide)]
  dsimp only [ofSource] at name
  simp [inside, name, closeBraces, closeReference, readRaw, Text.strip_eq_self i.name solid, Insertion.reference]

theorem readString_piece (p : Piece) (is : List Insertion) (quote : Option Quote) :
    readString .double { rest := p.text ++ Insertion.sources is, quote := quote } = .ok p.token (behindPiece is) := by
  simp only [readString, readPiece_guarded 1 p.text _ p.guarded p.newline p.dollar]
  cases is with
  | nil => simp [Insertion.sources, readPiece, Quote.char, StringPiece.push, Piece.token, behindPiece, ofSource]
  | cons i is =>
    simp [Insertion.sources_cons, readPiece, Quote.char, startsReference, StringPiece.push, Piece.token, behindPiece,
      inside]

theorem readToken_piece (p : Piece) (is : List Insertion) (set : Specials) (eofAllowed : Bool)
    (stops : ¬(p.text = [] ∧ is ≠ [])) :
    readToken set eofAllowed (inside (p.text ++ Insertion.sources is)) = .ok p.token (behindPiece is) := by
  have plain : (inside (p.text ++ Insertion.sources is)).PlainNext := by
    intro cs rest
    cases h : p.text with
    | nil =>
      have last : is = [] := by simpa [h] using stops
      simp [inside, h, last, Insertion.sources] at rest
    | cons c text =>
      obtain rfl : c = '$' := by
        simp only [inside, h, List.cons_append, List.cons.injEq] at rest
        exact rest.1
      exact absurd (by simp [h]) p.dollar
  rw [readToken_of_inside set eofAllowed _ .double rfl plain]
  exact readString_piece p is (some .double)

theorem tokens_behindPiece (is : List Insertion) :
    (behindPiece is).tokens = .ok (Insertion.tokens is ++ [⟨.eof, [], 1, none⟩]) (ofSource []) := by
  induction is with
  | nil => exact tokens_nil
  | cons i is ih =>
    have reference : readToken .value true (behindPiece (i :: is)) =
        .ok i.reference (inside (i.piece.text ++ Insertion.sources is)) := by
      rw [behindPiece, Insertion.sources_cons, readToken_insertion]
    refine tokens_cons _ _ _ i.reference _ reference (by simp [Insertion.reference]) ?_
    by_cases skipped : i.piece.text = [] ∧ is ≠ []
    -- the quote is still open, so the next token is the next reference
    · have same : behindPiece is = inside (Insertion.sources is) := by
        obtain ⟨j, js, rfl⟩ := List.exists_cons_of_ne_nil skipped.2
        rfl
      rw [if_pos skipped, skipped.1]
      simpa [same] using ih
    · rw [if_neg skipped]
      exact tokens_cons _ _ _ i.piece.token _ (readToken_piece i.piece is .value true skipped) (by simp [Piece.token]) ih

end Scanner

namespace Interpolation

def spelling (t : Token) : Text :=
  match t.kind with
  | .reference => '$' :: '\x7b' :: t.text ++ ['\x7d']
  | _ => t.text

theorem flatMap_spelling (is : List Insertion) :
    (Insertion.tokens is).flatMap spelling ++ ['"'] = Insertion.sources is := by
  induction is with
  | nil => rfl
  | cons i is ih =>
    rw [Insertion.sources_cons, ← ih]
    by_cases skipped : i.piece.text = [] ∧ is ≠ []
    · simp [Insertion.tokens, skipped, spelling, Insertion.reference]
    · simp [Insertion.tokens, skipped, spelling, Insertion.reference, Piece.token]

/-- A string with references is read as its pieces and references, up to the end of the source, and their spellings
make up the string again. -/
theorem scan_source (x : Interpolation) :
    (Scanner.ofSource x.source).tokens =
        .ok x.tokens { rest := [], line := 1, quote := none, escapedDollar := false } ∧
      '"' :: x.tokens.flatMap spelling ++ ['"'] = x.source := by
  constructor
  · have first : Scanner.readToken .value true (Scanner.ofSource x.source) =
        .ok x.first.token (Scanner.behindPiece x.insertions) := by
      rw [source, List.cons_append, Scanner.readToken_opening]
      exact Scanner.readString_piece x.first x.insertions none
    exact Scanner.tokens_cons _ _ _ _ _ first (by simp [Piece.token]) (Scanner.tokens_behindPiece x.insertions)
  · rw [source, ← flatMap_spelling]
    simp [tokens, spelling, Piece.token]

theorem scan_source_run :
    ∃ x : Interpolation, x.source = "\"a$\x7bb\x7d$\x7bc\x7d\\\"\"".toList ∧
      (Scanner.ofSource x.source).tokens =
        .ok [⟨.string, ['a'], 1, some .double⟩, ⟨.reference, ['b'], 1, some .double⟩,
          ⟨.reference, ['c'], 1, some .double⟩, ⟨.string, ['\\', '"'], 1, some .double⟩, ⟨.eof, [], 1, none⟩] (Scanner.ofSource []) := by
  let b : Insertion := ⟨['b'], by decide, by simp; decide, ⟨[], .nil, by decide, by decide⟩⟩
  let c : Insertion := ⟨['c'], by decide, by simp; decide, ⟨['\\', '"'], .pair .nil, by decide, by decide⟩⟩
  let x : Interpolation := ⟨⟨['a'], .char (by decide) .nil, by decide, by decide⟩, [b, c]⟩
  exact ⟨x, by decide, (scan_source x).1⟩

end Interpolation
end DeviceProtocol
