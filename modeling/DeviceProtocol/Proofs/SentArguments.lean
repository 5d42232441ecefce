import DeviceProtocol.Proofs.CommandSequences
import DeviceProtocol.Proofs.QuotedValues
import DeviceProtocol.Proofs.StorableStrings
set_option autoImplicit false

namespace DeviceProtocol

namespace Text

def Trimmed (t : Text) : Prop := ∀ c, t.head? = some c ∨ t.getLast? = some c → isSpace c = false

theorem strip_subset (t : Text) : t.strip ⊆ t := by
  intro c mem
  have left : c ∈ t.stripLeft := by simpa using (List.dropWhile_sublist _).subset (List.mem_reverse.mp mem)
  exact (List.dropWhile_sublist _).subset left

theorem stripLeft_eq_self_iff (t : Text) : t.stripLeft = t ↔ ∀ c, t.head? = some c → isSpace c = false := by
  cases t with
  | nil => simp [stripLeft]
  | cons c cs =>
    have shorter := length_stripLeft_le cs
    cases space : isSpace c with
    | true =>
      have strips : stripLeft (c :: cs) = stripLeft cs := by simp [stripLeft, space]
      have other : stripLeft cs ≠ c :: cs := by
        intro same
        rw [same, List.length_cons] at shorter
        omega
      simp [strips, other, space]
    | false => simp [stripLeft, space]

theorem stripRight_eq_self_iff (t : Text) : t.stripRight = t ↔ ∀ c, t.getLast? = some c → isSpace c = false := by
  rw [← List.head?_reverse, ← stripLeft_eq_self_iff]
  exact List.reverse_eq_iff

theorem strip_eq_self_iff (t : Text) : t.strip = t ↔ t.Trimmed := by
  have left : t.strip = t → t.stripLeft = t := by
    intro same
    have shorter : t.strip.length ≤ t.stripLeft.length := by
      have reversed := length_stripLeft_le t.stripLeft.reverse
      rwa [List.length_reverse, ← List.length_reverse] at reversed
    rw [same] at shorter
    exact (List.dropWhile_sublist _).eq_of_length (Nat.le_antisymm t.length_stripLeft_le shorter)
  constructor
  · intro same c ends
    have first := left same
    rw [strip, first] at same
    exact ends.elim (t.stripLeft_eq_self_iff.mp first c) (t.stripRight_eq_self_iff.mp same c)
  · intro trimmed
    rw [strip, t.stripLeft_eq_self_iff.mpr fun c head => trimmed c (.inl head)]
    exact t.stripRight_eq_self_iff.mpr fun c last => trimmed c (.inr last)

end Text

namespace Instantiation

/-- The text with a backslash before each of the marks. -/
def protect (marks a : Text) : Text := a.flatMap fun c => if c ∈ marks then ['\\', c] else [c]

/-- The name and the arguments as an instantiation writes them. -/
def written (marks name : Text) (arguments : List Text) : Text :=
  name ++ '(' :: (Text.joinWith [','] (arguments.map (protect marks)) ++ [')'])

/-- With these marks nothing in the text is mistaken for the end of an argument or for a backslash. -/
structure Covers (marks a : Text) : Prop where
  comma : ',' ∈ marks
  opening : '(' ∈ marks
  closing : ')' ∈ marks
  backslash : '\\' ∈ a → '\\' ∈ marks

theorem Covers.tail {marks a : Text} {c : Char} (h : Covers marks (c :: a)) : Covers marks a :=
  ⟨h.comma, h.opening, h.closing, fun mem => h.backslash (List.mem_cons_of_mem c mem)⟩

theorem readArguments_plain (depth : Nat) (c : Char) (cs : Text) (plain : c ∉ ['\\', '(', ')', ',']) :
    readArguments depth (c :: cs) = (readArguments depth cs).map (extend c) := by
  simp only [List.mem_cons, List.not_mem_nil, or_false, not_or] at plain
  obtain ⟨backslash, opening, closing, comma⟩ := plain
  cases cs <;> simp [readArguments, backslash]

theorem readArguments_protect (marks a t b rest : Text) (bs : List Text) (covers : Covers marks a)
    (h : readArguments 0 t = some (b :: bs, rest)) :
    readArguments 0 (protect marks a ++ t) = some ((a ++ b) :: bs, rest) := by
  induction a with
  | nil => exact h
  | cons c a ih =>
    have next := ih covers.tail
    rw [protect, List.flatMap_cons, List.append_assoc]
    by_cases marked : c ∈ marks
    · rw [if_pos marked]
      show (readArguments 0 (protect marks a ++ t)).map (extend c) = _
      rw [next]
      rfl
    · rw [if_neg marked]
      have plain : c ∉ ['\\', '(', ')', ','] := by
        intro special
        simp only [List.mem_cons, List.not_mem_nil, or_false] at special
        rcases special with rfl | rfl | rfl | rfl
        · exact marked (covers.backslash List.mem_cons_self)
        · exact marked covers.opening
        · exact marked covers.closing
        · exact marked covers.comma
      show readArguments 0 (c :: (protect marks a ++ t)) = _
      rw [readArguments_plain 0 c _ plain, next]
      rfl

theorem readArguments_joined (marks : Text) (arguments : List Text) (given : arguments ≠ [])
    (covers : ∀ a ∈ arguments, Covers marks a) :
    readArguments 0 (Text.joinWith [','] (arguments.map (protect marks)) ++ [')']) = some (arguments, []) := by
  induction arguments with
  | nil => exact absurd rfl given
  | cons a arguments ih =>
    rw [List.forall_mem_cons] at covers
    cases arguments with
    | nil =>
      have last := readArguments_protect marks a [')'] [] [] [] covers.1 rfl
      rwa [List.append_nil] at last
    | cons b bs =>
      have back := ih (List.cons_ne_nil b bs) covers.2
      have next : readArguments 0 (',' :: (Text.joinWith [','] ((b :: bs).map (protect marks)) ++ [')'])) =
          some ([] :: b :: bs, []) := by
        show (readArguments 0 _).map _ = _
        rw [back]
        rfl
      have all := readArguments_protect marks a _ [] [] (b :: bs) covers.1 next
      rw [List.append_nil] at all
      rw [← all, List.map_cons, List.map_cons, Text.joinWith, List.append_assoc, List.append_assoc]
      · rfl
      · exact List.cons_ne_nil _ _

theorem cutAt?_append (sep : Char) (front rest : Text) (plain : sep ∉ front) :
    Text.cutAt? sep (front ++ sep :: rest) = some (front, rest) := by
  have before : ∀ c ∈ front, (c != sep) = true := by
    intro c hc
    simp only [bne_iff_ne, ne_eq]
    rintro rfl
    exact plain hc
  simp [Text.cutAt?, List.dropWhile_append_of_pos before, List.takeWhile_append_of_pos before]

theorem ofText_written_strip (marks name : Text) (arguments : List Text) (plain : '(' ∉ name) (given : arguments ≠ [])
    (covers : ∀ a ∈ arguments, Covers marks a) :
    ofText (written marks name arguments) = .ok ⟨name.strip, arguments.map Text.strip⟩ := by
  rw [ofText, written, cutAt?_append '(' name _ plain]
  simp only [readArguments_joined marks arguments given covers]
  rfl

theorem ofText_written (marks name : Text) (arguments : List Text) (plain : '(' ∉ name) (trimmed : name.strip = name)
    (given : arguments ≠ []) (covers : ∀ a ∈ arguments, Covers marks a) (each : ∀ a ∈ arguments, a.strip = a) :
    ofText (written marks name arguments) = .ok ⟨name, arguments⟩ := by
  have same : arguments.map Text.strip = arguments := (List.map_congr_left each).trans (List.map_id' _)
  rw [ofText_written_strip marks name arguments plain given covers, trimmed, same]

theorem not_mem_of_cutAt? (sep : Char) (text front : Text)
    (h : Text.cutAt? sep text = none ∧ front = text ∨ ∃ rest, Text.cutAt? sep text = some (front, rest)) :
    sep ∉ front := by
  have free : sep ∉ text.takeWhile (· != sep) := by
    intro mem
    simpa using List.all_eq_true.mp List.all_takeWhile _ mem
  have parts := List.takeWhile_append_dropWhile (p := (· != sep)) (l := text)
  rw [Text.cutAt?] at h
  split at h
  · next none =>
    rw [none, List.append_nil] at parts
    obtain ⟨-, rfl⟩ | ⟨rest, cut⟩ := h
    · rwa [parts] at free
    · cases cut
  · obtain ⟨cut, -⟩ | ⟨rest, cut⟩ := h <;> cases cut
    exact free

theorem opening_not_mem_name (text : Text) (i : Instantiation) (h : ofText text = .ok i) : '(' ∉ i.name := by
  rw [ofText] at h
  split at h
  · next cut =>
    cases h
    exact fun mem => not_mem_of_cutAt? '(' text text (.inl ⟨cut, rfl⟩) (text.strip_subset mem)
  · next name cs cut =>
    split at h
    · cases h
    · split at h
      · cases h
        exact fun mem => not_mem_of_cutAt? '(' text name (.inr ⟨cs, cut⟩) (name.strip_subset mem)
      · cases h

/-- Written with a backslash before every comma, parenthesis and backslash of the arguments, a name and its arguments are
read back if and only if the name has no opening parenthesis, there is an argument, and none of them has white space
at an end. -/
theorem ofText_written_eq_ok_iff (name : Text) (arguments : List Text) :
    ofText (written [',', '(', ')', '\\'] name arguments) = .ok ⟨name, arguments⟩ ↔
      ('(' ∉ name ∧ name.Trimmed) ∧ arguments ≠ [] ∧ ∀ a ∈ arguments, a.Trimmed := by
  have covers (a : Text) : Covers [',', '(', ')', '\\'] a := ⟨by decide, by decide, by decide, fun _ => by decide⟩
  constructor
  · intro h
    have plain : '(' ∉ name := opening_not_mem_name _ _ h
    have given : arguments ≠ [] := by
      -- empty parentheses hold one argument, the empty one
      rintro rfl
      have one : ofText (written [',', '(', ')', '\\'] name []) = .ok ⟨name.strip, [[]]⟩ := by
        rw [ofText, written, cutAt?_append '(' name _ plain]
        rfl
      rw [one] at h
      injection h with h
      injection h with _ other
      cases other
    rw [ofText_written_strip _ name arguments plain given fun a _ => covers a] at h
    injection h with h
    injection h with trimmed each
    refine ⟨⟨plain, name.strip_eq_self_iff.mp trimmed⟩, given, fun a mem => a.strip_eq_self_iff.mp ?_⟩
    exact List.map_inj_left.mp (each.trans (List.map_id' _).symm) a mem
  · rintro ⟨⟨plain, trimmed⟩, given, each⟩
    exact ofText_written _ name arguments plain (name.strip_eq_self_iff.mpr trimmed) given (fun a _ => covers a)
      fun a mem => a.strip_eq_self_iff.mpr (each a mem)

end Instantiation

theorem Instruction.merge_map_literal {α : Type} (g : α → Bytes) (as : List α) :
    merge (as.map fun a => .literal (g a)) = if as = [] then [] else [.literal (as.flatMap g)] := by
  induction as with
  | nil => rfl
  | cons a as ih =>
    rw [List.map_cons, merge, ih]
    cases as with
    | nil => simp
    | cons b as => simp

/-- A text that can stand in a string as it is: it has no backslash, no percent sign and no control character. -/
structure Text.Sendable (a : Text) : Prop where
  backslash : '\\' ∉ a
  percent : '%' ∉ a
  allowed : ∀ c ∈ a, 0x20 ≤ c.toNat % 0x80

theorem Text.sendable_iff (a : Text) :
    a.Sendable ↔ '\\' ∉ a ∧ '%' ∉ a ∧ a.all (fun c => 0x20 ≤ c.toNat % 0x80) = true := by
  simp only [List.all_eq_true, decide_eq_true_eq]
  exact ⟨fun h => ⟨h.backslash, h.percent, h.allowed⟩, fun ⟨h₁, h₂, h₃⟩ => ⟨h₁, h₂, h₃⟩⟩

instance (a : Text) : Decidable a.Sendable := decidable_of_iff _ a.sendable_iff.symm

namespace Cell

def ofArgument (c : Char) : Cell := if c = '"' then byte 0x22 else char c

theorem ofArgument_toInstruction (c : Char) : (ofArgument c).toInstruction = .literal (Text.utf8 [c]) := by
  unfold ofArgument
  split
  · next quote =>
    subst quote
    decide
  · rfl

theorem ofQuoted_nil : ofQuoted [] = .ok [] := by rw [ofQuoted]

theorem ofQuoted_escapeQuotes (a : Text) (h : a.Sendable) : ofQuoted (escapeQuotes a) = .ok (a.map ofArgument) := by
  induction a with
  | nil => exact ofQuoted_nil
  | cons c a ih =>
    obtain ⟨backslash, percent, allowed⟩ := h
    rw [List.mem_cons, not_or] at backslash percent
    rw [List.forall_mem_cons] at allowed
    have plain : c ≠ '\\' := Ne.symm backslash.1
    have printable : isForbidden c = false := by simpa [isForbidden] using allowed.1
    have rest := ih ⟨backslash.2, percent.2, allowed.2⟩
    by_cases quote : c = '"'
    · subst quote
      show ofQuoted ('\\' :: '"' :: escapeQuotes a) = _
      rw [ofQuoted_escape _ [byte 0x22] 1 rfl, List.drop_one, List.tail_cons, rest]
      rfl
    · rw [escapeQuotes_plain c a plain quote, ofQuoted_char c _ printable plain, rest, List.map_cons, ofArgument,
        if_neg quote]
      rfl

theorem toInstructions_argument (a : Text) :
    toInstructions (a.map ofArgument) = if a = [] then [] else [.literal a.utf8] := by
  have each : (a.map ofArgument).map toInstruction = a.map fun c => .literal (Text.utf8 [c]) := by
    rw [List.map_map]
    exact List.map_congr_left fun c _ => ofArgument_toInstruction c
  have bytes : a.flatMap (fun c => Text.utf8 [c]) = a.utf8 := by simp [Text.utf8]
  rw [toInstructions, each, Instruction.merge_map_literal, bytes]

end Cell

namespace Compiler

variable (k : Compiler)

theorem compileFormats_of_no_percent (line : Int) (file : Option Text) (mode : Mode) (position : Nat)
    (cells : List Cell) (plain : .char '%' ∉ cells) : k.compileFormats line file mode position cells = .ok cells := by
  fun_induction k.compileFormats line file mode position cells with
  | case1 => rfl
  | case2 position rest ih => simp at plain
  | case3 position rest _ source ih => simp at plain
  | case4 position cell rest _ _ ih =>
    rw [ih fun mem => plain (List.mem_cons_of_mem _ mem)]
    rfl

variable (p : Protocol)

theorem compileString_line (mode : Mode) (ts : List Token) (run : List StringItem) (cells : List Cell)
    (runs : lineRuns (stringItems ts) = [run]) (h : (k.compileLine p mode 0 run).result = .ok cells) :
    (k.compileString p mode ts).result = .ok (Cell.toInstructions cells) := by
  have lines : (k.compileLines p mode 0 (lineRuns (stringItems ts))).result = .ok cells := by
    rw [runs, compileLines, Traced.bind_of_ok _ _ cells h]
    show Except.ok (cells ++ []) = _
    rw [List.append_nil]
  rw [compileString, Traced.bind_of_ok _ _ cells lines]
  rfl

theorem compileString_run (mode : Mode) (ts : List Token) (run : List StringItem) (cells : List Cell)
    (runs : lineRuns (stringItems ts) = [run]) (plain : .char '%' ∉ cells)
    (h : (Traced.flatMap (k.encode p mode k.depthLimit.toNat) run).result = .ok cells) :
    (k.compileString p mode ts).result = .ok (Cell.toInstructions cells) := by
  refine k.compileString_line p mode ts run cells runs ?_
  rw [compileLine, Traced.bind_of_ok _ _ cells h]
  split
  · rfl
  · rfl
  · exact k.compileFormats_of_no_percent _ _ _ _ _ plain

theorem encode_argument (mode : Mode) (depth : Nat) (t : Token) (i : Nat) (a : Text) (cells : List Cell)
    (reference : t.kind = .reference) (quoted : t.isQuoted = true) (index : p.parameterIndex t.text = .ok (some i))
    (slot : p.slot i = some a) (h : Cell.ofQuoted (escapeQuotes a) = .ok cells) :
    (k.encode p mode (depth + 1) (.token t)).result = .ok cells := by
  have value : (p.resolve t).result = .ok [⟨.string, escapeQuotes a, t.line, some .double⟩] := by
    have inside : ¬ maxParameters < i := by
      intro outside
      cases slot.symm.trans (p.slot_of_lt i outside)
    rw [Protocol.resolve, Traced.bind_of_ok _ _ (some i) index]
    simp [inside, slot, quoted]
  have inner := (k.encode_string_iff p mode depth ⟨.string, escapeQuotes a, t.line, some .double⟩ cells rfl).mpr h
  rw [encode]
  simp only [reference]
  rw [Traced.bind_of_ok _ _ _ value]
  show (_ >>= _ : Traced (List Cell)).result = _
  rw [Traced.bind_of_ok _ _ _ inner]
  show Except.ok (cells ++ []) = _
  rw [List.append_nil]

theorem compileString_argument (line : Int) (d : Char) (i : Nat) (a : Text) (deep : 1 ≤ k.depthLimit)
    (index : p.parameterIndex [d] = .ok (some i)) (slot : p.slot i = some a) (h : a.Sendable) :
    (k.compileString p .print [⟨.string, [], line, some .double⟩, ⟨.reference, [d], line, some .double⟩,
      ⟨.string, [], line, some .double⟩]).result = .ok (if a = [] then [] else [.literal a.utf8]) := by
  obtain ⟨depth, hd⟩ : ∃ depth, k.depthLimit.toNat = depth + 1 := ⟨k.depthLimit.toNat - 1, by omega⟩
  have empty := (k.encode_string_iff p .print k.depthLimit.toNat ⟨.string, [], line, some .double⟩ [] rfl).mpr
    Cell.ofQuoted_nil
  have argument := k.encode_argument p .print depth ⟨.reference, [d], line, some .double⟩ i a _ rfl rfl index slot
    (Cell.ofQuoted_escapeQuotes a h)
  have plain : .char '%' ∉ a.map Cell.ofArgument := by
    intro mem
    obtain ⟨c, hc, same⟩ := List.mem_map.mp mem
    unfold Cell.ofArgument at same
    split at same
    · cases same
    · cases same
      exact h.percent hc
  rw [← hd] at argument
  have runs : lineRuns (stringItems [⟨.string, [], line, some .double⟩, ⟨.reference, [d], line, some .double⟩,
      ⟨.string, [], line, some .double⟩]) = [[.token ⟨.string, [], line, some .double⟩,
        .token ⟨.reference, [d], line, some .double⟩, .token ⟨.string, [], line, some .double⟩]] := by
    simp [stringItems, lineRuns, StringItem.line, Token.isSign, Token.isSpecial]
  have encoded : (Traced.flatMap (k.encode p .print k.depthLimit.toNat) [.token ⟨.string, [], line, some .double⟩,
      .token ⟨.reference, [d], line, some .double⟩, .token ⟨.string, [], line, some .double⟩]).result =
      .ok (a.map Cell.ofArgument) := by
    rw [Traced.flatMap_eq_ok_iff]
    exact ⟨[[], a.map Cell.ofArgument, []], .cons empty (.cons argument (.cons empty .nil)), by simp⟩
  rw [k.compileString_run p .print _ _ _ runs plain encoded, Cell.toInstructions_argument]

theorem compileCommand_out (line : Int) (ts : List Token) (first : ts.takeWhile Token.isBlank = []) :
    (k.compileCommand p (⟨.word, "out".toList, line, none⟩, ts)).result =
      ((k.compileString p .print ts).mapFault fun f =>
        (f.locate (some line) p.file).addNote (some line) (.inCommand "out".toList)).result.map
        fun is => ⟨.output, line, [.string is]⟩ := by
  have whole : (Arguments.ofTokens ts).skipBlanks = Arguments.ofTokens ts := by
    simp [Arguments.skipBlanks, Arguments.ofTokens, Arguments.advance, first]
  have atEnd : (Arguments.ofTokens ts).finish.skipBlanks.atEnd = true := by
    simp [Arguments.finish, Arguments.skipBlanks, Arguments.atEnd, Arguments.ofTokens, Arguments.advance]
  have named : (k.compileNamed p "out".toList line (Arguments.ofTokens ts)).result =
      (k.compileString p .print ts).result.map fun is =>
        (⟨.output, line, [.string is]⟩, (Arguments.ofTokens ts).finish) := by
    show (k.compileString p .print ts >>= _).result = _
    rw [Traced.result_bind]
    cases (k.compileString p .print ts).result <;> rfl
  rw [compileCommand, whole, Traced.result_bind, Traced.mapFault, Traced.mapFault, named]
  cases (k.compileString p .print ts).result with
  | error e => rfl
  | ok is =>
    show (ite _ _ _ : Traced Command).result = _
    rw [if_pos atEnd]
    rfl

theorem handlerPrograms_of_no_handlers (h : ∀ b ∈ p.bindings, b.isHandler = false) :
    (k.handlerPrograms p).result = .ok [] := by
  have spelled : ∀ name ∈ knownHandlers, isHandlerName name = true := by decide
  have missing (name : Text) (known : name ∈ knownHandlers) : p.lookup name = none := by
    refine Option.eq_none_iff_forall_ne_some.mpr fun b found => ?_
    have front := p.lookup_prefix name b found
    rw [Protocol.lower_known name known] at front
    obtain ⟨rest, same⟩ := front
    have other := h b (p.mem_of_lookup name b found)
    have handler := spelled name known
    cases name with
    | nil => cases handler
    | cons c cs =>
      rw [Binding.isHandler, ← same] at other
      exact absurd handler (by simpa [isHandlerName] using other)
  rw [handlerPrograms, Traced.flatMap_eq_ok_iff]
  refine ⟨knownHandlers.map fun _ => [], ?_, by simp⟩
  rw [List.forall₂_map_right_iff, List.forall₂_same]
  intro name known
  rw [Traced.bind_of_ok _ _ none]
  · rfl
  · rw [handlerProgram, Traced.bind_of_ok _ _ none]
    · rfl
    · rw [Protocol.consult_result, missing name known]

theorem compileSource_of_no_handlers (source instantiation : Text) (file : Option Text) (f : ProtocolFile)
    (hf : ProtocolFile.ofSource source file = .ok f) (hp : f.instantiate instantiation = .ok p)
    (h : ∀ b ∈ p.bindings, b.isHandler = false) :
    k.compileSource source instantiation file = (k.compileInstance p).result := by
  cases compiled : (k.compileInstance p).result with
  | error e => simp only [compileSource, hf, hp, compiled, Except.mapError, bind, Except.bind]
  | ok program =>
    refine (k.compileSource_eq_ok_iff source instantiation file f p program hf hp).mpr ⟨compiled, ?_⟩
    rw [Protocol.checkUnused_touch_iff]
    intro b hb
    obtain ⟨mem, handler⟩ := List.mem_filter.mp hb
    rw [h b mem] at handler
    cases handler

end Compiler

/-- The only command sends the parameter of this digit, between quotes. -/
def Protocol.Sends (p : Protocol) (line : Int) (d : Char) : Prop :=
  ∃ quoted ending : Int, p.commands.value = [⟨.word, "out".toList, line, none⟩, ⟨.string, [], quoted, some .double⟩,
    ⟨.reference, [d], quoted, some .double⟩, ⟨.string, [], quoted, some .double⟩, ⟨.terminator, [';'], ending, none⟩]

theorem Protocol.Sends.copy {p : Protocol} {line : Int} {d : Char} (h : p.Sends line d) (name : Text) (place : Int)
    (arguments : List Text) : (p.copy name place arguments).Sends line d := by
  obtain ⟨quoted, ending, commands⟩ := h
  exact ⟨quoted, ending, (p.copy_commands name place arguments).trans commands⟩

namespace Compiler

variable (k : Compiler) (table : FieldTable) (p : Protocol) (line : Int) (d : Char) (i : Nat) (a : Text)

theorem compileInstance_out (hk : k.fields = some table) (handlers : ∀ b ∈ p.bindings, b.isHandler = false)
    (command : CompleteCommand) (out : command.word = ⟨.word, "out".toList, line, none⟩)
    (first : command.arguments.takeWhile Token.isBlank = []) (only : p.commands.value = command.tokens) :
    (k.compileInstance p).result =
      (((k.compileString p .print command.arguments).mapFault fun f =>
        (f.locate (some line) p.file).addNote (some line) (.inCommand "out".toList)).mapFault fun f =>
        (f.locate (some p.commands.line) p.file).addNote (some p.commands.line) (.inProtocol p.name)).result.map
        fun is => ⟨[⟨.output, line, [.string is]⟩]⟩ := by
  have segments : commandSegments p.commands.value = [(⟨.word, "out".toList, line, none⟩, command.arguments)] := by
    rw [only, ← List.append_nil command.tokens]
    exact (commandSegments_complete [command]).trans (by rw [List.map_singleton, CompleteCommand.segment, out])
  have commands : (k.compileCommands p p.commands.value).result =
      ((k.compileString p .print command.arguments).mapFault fun f =>
        (f.locate (some line) p.file).addNote (some line) (.inCommand "out".toList)).result.map
        fun is => ⟨[⟨.output, line, [.string is]⟩]⟩ := by
    rw [compileCommands, hk, segments]
    simp only [Traced.forAll, Traced.result_bind, k.compileCommand_out p line command.arguments first, Traced.mapFault]
    cases (k.compileString p .print command.arguments).result <;> rfl
  have filled : p.commands.value.isEmpty = false := by
    rw [only]
    rfl
  rw [compileInstance, Traced.bind_of_ok _ _ _ (k.handlerPrograms_of_no_handlers p handlers), ownProgram]
  simp only [filled, Traced.result_bind, Traced.result_use, Traced.mapFault, commands]
  cases (k.compileString p .print command.arguments).result <;> rfl

theorem compileInstance_sends (hk : k.fields = some table) (deep : 1 ≤ k.depthLimit) (sends : p.Sends line d)
    (handlers : ∀ b ∈ p.bindings, b.isHandler = false) (index : p.parameterIndex [d] = .ok (some i))
    (slot : p.slot i = some a) (h : a.Sendable) :
    (k.compileInstance p).result =
      .ok ⟨[⟨.output, line, [.string (if a = [] then [] else [.literal a.utf8])]⟩]⟩ := by
  obtain ⟨quoted, ending, commands⟩ := sends
  let command : CompleteCommand := {
    word := ⟨.word, "out".toList, line, none⟩
    arguments := [⟨.string, [], quoted, some .double⟩, ⟨.reference, [d], quoted, some .double⟩,
      ⟨.string, [], quoted, some .double⟩]
    stop := ⟨.terminator, [';'], ending, none⟩
    named := rfl
    inside := by simp
    stops := rfl }
  have first : command.arguments.takeWhile Token.isBlank = [] := by simp [command, Token.isBlank, Token.isSpecial]
  rw [k.compileInstance_out table p line hk handlers command rfl first commands, Traced.mapFault, Traced.mapFault,
    k.compileString_argument p quoted d i a deep index slot h]
  rfl

end Compiler

namespace ProtocolFile

def sending (d : Char) : Text := "p \x7b out \"$".toList ++ d :: "\"; \x7d".toList

theorem ofSource_sending (n : Fin 10) (file : Option Text) :
    ∃ f t, ofSource (sending (Nat.digitChar n)) file = .ok f ∧ f.find ['p'] = some t ∧
      t.Sends 1 (Nat.digitChar n) ∧ t.bindings = [] := by
  let d := Nat.digitChar n
  let quoted (kind : TokenKind) (text : Text) : Token := ⟨kind, text, 1, some .double⟩
  let c : WrittenCommand := ⟨"out".toList, 1, false, [quoted .string [], quoted .reference [d], quoted .string []], 1⟩
  have table : ∀ n : Fin 10,
      Scanner.readHead true (.ofSource (sending (Nat.digitChar n))) = .ok (.named ['p'] 1 (some '\x7b'))
        { rest := " out \"$".toList ++ Nat.digitChar n :: "\"; \x7d".toList } ∧
      Scanner.readHead false { rest := " out \"$".toList ++ Nat.digitChar n :: "\"; \x7d".toList } =
        .ok (.named "out".toList 1 (some '"')) { rest := '$' :: Nat.digitChar n :: "\"; \x7d".toList } ∧
      Scanner.readLazyValue { rest := '"' :: '$' :: Nat.digitChar n :: "\"; \x7d".toList } =
        .ok [⟨.string, [], 1, some .double⟩, ⟨.reference, [Nat.digitChar n], 1, some .double⟩,
          ⟨.string, [], 1, some .double⟩] { rest := " \x7d".toList } := by
    decide +kernel
  obtain ⟨definition, command, value⟩ := table n
  have written : Scanner.StatementsAt (.ofSource (sending d)) [.definition ['p'] 1 [] [.command c]] := by
    refine .definition _ _ _ { rest := [] } _ 1 (some '\x7b') [] _ [] definition (by decide) (.inl rfl) rfl
      (.command _ _ _ _ _ (.intro _ _ { rest := " \x7d".toList } _ 1 _ _ command ?_ ?_ ?_ value) (.close _ _ ?_))
      (.done _ { rest := [] } ?_)
    all_goals decide +kernel
  have built : (empty file).build? [.definition ['p'] 1 [] [.command c]] =
      some { empty file with protocols := [((empty file).template ['p'] 1 []).addCommands (c.tokens [])] } := rfl
  refine ⟨_, _, (ofSource_eq_ok_iff _ file _).mpr ⟨_, _, written, built, rfl⟩, rfl, ⟨1, 1, rfl⟩, rfl⟩

end ProtocolFile

namespace Compiler

theorem compileSource_sends (k : Compiler) (table : FieldTable) (hk : k.fields = some table) (deep : 1 ≤ k.depthLimit)
    (source instantiation : Text) (file : Option Text) (f : ProtocolFile) (t : Protocol) (line : Int)
    (arguments : List Text) (n : Nat) (hn : n < arguments.length) (few : arguments.length ≤ maxParameters)
    (read : Instantiation.ofText instantiation = .ok ⟨['p'], arguments⟩) (sendable : arguments[n].Sendable)
    (hf : ProtocolFile.ofSource source file = .ok f) (found : f.find ['p'] = some t)
    (sends : t.Sends line (Nat.digitChar (n + 1))) (handlers : ∀ b ∈ t.bindings, b.isHandler = false) :
    k.compileSource source instantiation file =
      .ok ⟨[⟨.output, line, [.string (if arguments[n] = [] then [] else [.literal arguments[n].utf8])]⟩]⟩ := by
  let p := t.copy instantiation 0 arguments
  have hp : f.instantiate instantiation = .ok p := by
    simp [ProtocolFile.instantiate, read, ProtocolFile.template?, found, p]
  have nine : n + 1 < 10 := Nat.succ_lt_succ (hn.trans_le few)
  have digits : ∀ m : Fin 10, isDigit (Nat.digitChar m) = true ∧ decimalValue? (Nat.digitChar m) = some m.val := by
    decide
  have index : p.parameterIndex [Nat.digitChar (n + 1)] = .ok (some (n + 1)) := by
    obtain ⟨digit, value⟩ := digits ⟨n + 1, nine⟩
    rw [Protocol.parameterIndex, if_pos digit, value]
  have slot : p.slot (n + 1) = some arguments[n] := by
    rw [Protocol.slot, if_pos (hn.trans_le few)]
    show (arguments.take maxParameters)[n]? = _
    rw [List.take_of_length_le few, List.getElem?_eq_getElem hn]
  rw [k.compileSource_of_no_handlers p source instantiation file f hf hp handlers]
  exact k.compileInstance_sends table p line _ (n + 1) arguments[n] hk deep (sends.copy _ _ _) handlers index slot
    sendable

/-- Arguments that can be sent as they are arrive as they are. Commas and parentheses in them are written with a
backslash, and an argument comes out as one literal of its bytes. -/
theorem compileSource_argument (k : Compiler) (table : FieldTable) (hk : k.fields = some table)
    (deep : 1 ≤ k.depthLimit) (arguments : List Text) (n : Nat) (hn : n < arguments.length)
    (few : arguments.length ≤ maxParameters) (trimmed : ∀ a ∈ arguments, a.strip = a)
    (sendable : ∀ a ∈ arguments, a.Sendable) :
    let instantiation := Instantiation.written [',', '(', ')'] ['p'] arguments
    let sent (line : Int) : Program :=
      ⟨[⟨.output, line, [.string (if arguments[n] = [] then [] else [.literal arguments[n].utf8])]⟩]⟩
    (∀ (source : Text) (file : Option Text) (f : ProtocolFile) (t : Protocol) (line : Int),
      ProtocolFile.ofSource source file = .ok f → f.find ['p'] = some t → t.Sends line (Nat.digitChar (n + 1)) →
      (∀ b ∈ t.bindings, b.isHandler = false) → k.compileSource source instantiation file = .ok (sent line)) ∧
    ∀ file, k.compileSource (ProtocolFile.sending (Nat.digitChar (n + 1))) instantiation file = .ok (sent 1) := by
  intro instantiation sent
  have read : Instantiation.ofText instantiation = .ok ⟨['p'], arguments⟩ := by
    refine Instantiation.ofText_written _ _ _ (by decide) (by decide) (List.ne_nil_of_length_pos (by omega)) ?_ trimmed
    exact fun a ha => ⟨by decide, by decide, by decide, fun mem => absurd mem (sendable a ha).backslash⟩
  have law (source : Text) (file : Option Text) (f : ProtocolFile) (t : Protocol) (line : Int) :=
    k.compileSource_sends table hk deep source instantiation file f t line arguments n hn few read
      (sendable _ (List.getElem_mem hn))
  refine ⟨law, fun file => ?_⟩
  have nine : n + 1 < 10 := Nat.succ_lt_succ (hn.trans_le few)
  obtain ⟨f, t, hf, found, sends, bare⟩ := ProtocolFile.ofSource_sending ⟨n + 1, nine⟩ file
  exact law _ file f t 1 hf found sends (by simp [bare])

/-- The second argument has all that is written in another way on the way. -/
theorem compileSource_argument_marks :
    let argument : Text := "(a,b) \"c\" 'd$1', é".toList
    let arguments : List Text := [[], argument]
    Instantiation.written [',', '(', ')'] ['p'] arguments = "p(,\\(a\\,b\\) \"c\" 'd$1'\\, é)".toList ∧
      (∀ a ∈ arguments, a.Sendable) ∧
      ({} : Compiler).compileSource "p \x7b out \"$2\"; \x7d".toList
          (Instantiation.written [',', '(', ')'] ['p'] arguments) none =
        .ok ⟨[⟨.output, 1, [.string [.literal argument.utf8]]⟩]⟩ := by
  intro argument arguments
  have sendable : ∀ a ∈ arguments, a.Sendable := by decide
  refine ⟨by decide, sendable, ?_⟩
  exact (compileSource_argument {} [] rfl (by decide) arguments 1 (by decide) (by decide) (by decide) sendable).2 none

end Compiler
end DeviceProtocol
